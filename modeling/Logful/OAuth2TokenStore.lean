import Logful.Documents
import Logful.Runs

/-!
`OAuth2RepositoryTokenStore` on the two collections of `OAuth2TokenCommonRepository`, against
two maps from token values.

The id of a document is the one that `BasePersistenceEntity` draws for every object; the field
`id` that a token takes over from a document with its value is another one. So what is stored
under a value again becomes one more document, and the oldest is read. Of the four ways to read
only `readAccessToken` allows for a value that is absent, and an access token cannot be stored
without a refresh token: the others throw there, where the maps have an answer. What else is in a
token is stored and read back as it is, like an authentication.
-/

namespace Logful.OAuth2TokenStore

open Logful.Documents Logful.Runs

variable {Info Auth : Type}

/-! ### Tokens and documents -/

structure RefreshToken (Info : Type) where
  value : String
  info : Info
  deriving DecidableEq

structure AccessToken (Info : Type) where
  value : String
  refreshToken : Option (RefreshToken Info)
  info : Info
  deriving DecidableEq

structure OAuth2AuthenticationAccessToken (Info Auth : Type) where
  /-- The field of the class itself, which is not the id of the document. -/
  id : Option String
  tokenId : String
  oAuth2AccessToken : AccessToken Info
  authentication : Auth
  refreshToken : String

structure OAuth2AuthenticationRefreshToken (Info Auth : Type) where
  id : Option String
  tokenId : String
  oAuth2RefreshToken : RefreshToken Info
  authentication : Auth

inductive Thrown
  | nullPointer
  deriving DecidableEq

/-- The constructor, which asks for the value of the refresh token. -/
def OAuth2AuthenticationAccessToken.new (token : AccessToken Info) (authentication : Auth) :
    Except Thrown (OAuth2AuthenticationAccessToken Info Auth) :=
  match token.refreshToken with
  | none => .error .nullPointer
  | some refreshToken => .ok ⟨none, token.value, token, authentication, refreshToken.value⟩

def OAuth2AuthenticationRefreshToken.new (token : RefreshToken Info) (authentication : Auth) :
    OAuth2AuthenticationRefreshToken Info Auth := ⟨none, token.value, token, authentication⟩

/-! ### The store -/

structure Store (Info Auth : Type) where
  accessTokens : Collection ObjectId (OAuth2AuthenticationAccessToken Info Auth)
  refreshTokens : Collection ObjectId (OAuth2AuthenticationRefreshToken Info Auth)

def Store.empty : Store Info Auth := ⟨.empty, .empty⟩

variable (s : Store Info Auth)

def findAccessToken (tokenId : String) : Option (OAuth2AuthenticationAccessToken Info Auth) :=
  (s.accessTokens.findOne fun b => b.tokenId = tokenId).map Document.body

def findRefreshToken (tokenId : String) : Option (OAuth2AuthenticationRefreshToken Info Auth) :=
  (s.refreshTokens.findOne fun b => b.tokenId = tokenId).map Document.body

/-- `save` of an object made by a constructor, for whose document an id was drawn. -/
def saveNew {α : Type} (c : Collection ObjectId α) (b : α) : Collection ObjectId α :=
  c.save ⟨none, b⟩

def storeAccessToken (token : AccessToken Info) (authentication : Auth) :
    Except Thrown (Store Info Auth) :=
  (OAuth2AuthenticationAccessToken.new token authentication).map fun accessToken =>
    let accessToken := match findAccessToken s accessToken.tokenId with
      | some temp => { accessToken with id := temp.id }
      | none => accessToken
    { s with accessTokens := saveNew s.accessTokens accessToken }

def storeRefreshToken (refreshToken : RefreshToken Info) (authentication : Auth) :
    Store Info Auth :=
  let refreshToken : OAuth2AuthenticationRefreshToken Info Auth := .new refreshToken authentication
  let refreshToken := match findRefreshToken s refreshToken.tokenId with
    | some temp => { refreshToken with id := temp.id }
    | none => refreshToken
  { s with refreshTokens := saveNew s.refreshTokens refreshToken }

def removeAccessToken (accessToken : AccessToken Info) : Store Info Auth :=
  { s with
    accessTokens := s.accessTokens.remove fun d => d.body.tokenId = accessToken.value }

def removeRefreshToken (refreshToken : RefreshToken Info) : Store Info Auth :=
  { s with
    refreshTokens := s.refreshTokens.remove fun d => d.body.tokenId = refreshToken.value }

def removeAccessTokenUsingRefreshToken (refreshToken : RefreshToken Info) : Store Info Auth :=
  { s with
    accessTokens := s.accessTokens.remove fun d => d.body.refreshToken = refreshToken.value }

/-- A member of what was found, or the exception for nothing found. -/
def orThrow {α β : Type} (f : α → β) : Option α → Except Thrown β
  | none => .error .nullPointer
  | some a => .ok (f a)

def readAccessToken (tokenValue : String) : Option (AccessToken Info) :=
  (findAccessToken s tokenValue).map fun t => t.oAuth2AccessToken

def readAuthentication (tokenId : String) : Except Thrown Auth :=
  orThrow (fun t => t.authentication) (findAccessToken s tokenId)

def readRefreshToken (tokenValue : String) : Except Thrown (RefreshToken Info) :=
  orThrow (fun t => t.oAuth2RefreshToken) (findRefreshToken s tokenValue)

def readAuthenticationForRefreshToken (token : RefreshToken Info) : Except Thrown Auth :=
  orThrow (fun t => t.authentication) (findRefreshToken s token.value)

inductive Op (Info Auth : Type)
  | storeAccessToken (token : AccessToken Info) (authentication : Auth)
  | storeRefreshToken (refreshToken : RefreshToken Info) (authentication : Auth)
  | removeAccessToken (accessToken : AccessToken Info)
  | removeRefreshToken (refreshToken : RefreshToken Info)
  | removeAccessTokenUsingRefreshToken (refreshToken : RefreshToken Info)
  | readAccessToken (tokenValue : String)
  | readAuthentication (tokenId : String)
  | readRefreshToken (tokenValue : String)
  | readAuthenticationForRefreshToken (token : RefreshToken Info)

/-- What a call returns. -/
inductive Answer (Info Auth : Type)
  | done
  | accessToken (token : Option (AccessToken Info))
  | refreshToken (token : Option (RefreshToken Info))
  | authentication (authentication : Option Auth)
  deriving DecidableEq

/-- A call: the store afterwards, and what it returns or throws. -/
def call : Op Info Auth → Store Info Auth × Except Thrown (Answer Info Auth)
  | .storeAccessToken token authentication =>
    match storeAccessToken s token authentication with
    | .ok s => (s, .ok .done)
    | .error e => (s, .error e)
  | .storeRefreshToken token authentication =>
    (storeRefreshToken s token authentication, .ok .done)
  | .removeAccessToken token => (removeAccessToken s token, .ok .done)
  | .removeRefreshToken token => (removeRefreshToken s token, .ok .done)
  | .removeAccessTokenUsingRefreshToken token =>
    (removeAccessTokenUsingRefreshToken s token, .ok .done)
  | .readAccessToken value => (s, .ok (.accessToken (readAccessToken s value)))
  | .readAuthentication value =>
    (s, (readAuthentication s value).map fun a => .authentication (some a))
  | .readRefreshToken value =>
    (s, (readRefreshToken s value).map fun t => .refreshToken (some t))
  | .readAuthenticationForRefreshToken token =>
    (s, (readAuthenticationForRefreshToken s token).map fun a => .authentication (some a))

/-! ### Two maps -/

/-- What the store is for: the tokens that were stored and not removed, each with its
authentication. -/
structure Tokens (Info Auth : Type) where
  access : String → Option (AccessToken Info × Auth)
  refresh : String → Option (RefreshToken Info × Auth)

def Tokens.empty : Tokens Info Auth := ⟨fun _ => none, fun _ => none⟩

variable (m : Tokens Info Auth)

/-- The tokens after a call. -/
def Tokens.apply : Op Info Auth → Tokens Info Auth
  | .storeAccessToken token authentication =>
    { m with access := Function.update m.access token.value (some (token, authentication)) }
  | .storeRefreshToken token authentication =>
    { m with refresh := Function.update m.refresh token.value (some (token, authentication)) }
  | .removeAccessToken token => { m with access := Function.update m.access token.value none }
  | .removeRefreshToken token => { m with refresh := Function.update m.refresh token.value none }
  | .removeAccessTokenUsingRefreshToken token =>
    { m with access := fun k => (m.access k).filter fun v =>
        v.1.refreshToken.map RefreshToken.value ≠ some token.value }
  | _ => m

/-- What a call is to return. -/
def Tokens.answer : Op Info Auth → Answer Info Auth
  | .readAccessToken value => .accessToken ((m.access value).map Prod.fst)
  | .readAuthentication value => .authentication ((m.access value).map Prod.snd)
  | .readRefreshToken value => .refreshToken ((m.refresh value).map Prod.fst)
  | .readAuthenticationForRefreshToken token =>
    .authentication ((m.refresh token.value).map Prod.snd)
  | _ => .done

def Tokens.call (op : Op Info Auth) : Tokens Info Auth × Except Thrown (Answer Info Auth) :=
  (m.apply op, .ok (m.answer op))

/-! ### What is left of what was stored -/

/-- What was stored under each value and not removed since, the oldest first. An access token is
removed by its value or by the one of its refresh token. -/
structure Left (Info Auth : Type) where
  access : String → List (AccessToken Info × Auth)
  refresh : String → List (RefreshToken Info × Auth)

def Left.empty : Left Info Auth := ⟨fun _ => [], fun _ => []⟩

/-- What is left after a call. -/
def Left.apply (l : Left Info Auth) : Op Info Auth → Left Info Auth
  | .storeAccessToken token authentication =>
    { l with
      access := Function.update l.access token.value
        (l.access token.value ++ [(token, authentication)]) }
  | .storeRefreshToken token authentication =>
    { l with
      refresh := Function.update l.refresh token.value
        (l.refresh token.value ++ [(token, authentication)]) }
  | .removeAccessToken token => { l with access := Function.update l.access token.value [] }
  | .removeRefreshToken token => { l with refresh := Function.update l.refresh token.value [] }
  | .removeAccessTokenUsingRefreshToken token =>
    { l with
      access := fun k => (l.access k).filter fun v =>
        v.1.refreshToken.map RefreshToken.value ≠ some token.value }
  | _ => l

/-- Of what is left under a value, the oldest agrees with what was stored last, in what `f` reads;
or both are missing. -/
def Agrees {α β : Type} (f : α → β) (left : List α) (last : Option α) : Prop :=
  left.head?.map f = last.map f

/-- The calls that are answered as the maps say: an access token that is stored has a refresh
token, and what is read, which may be missing for `readAccessToken` only, is the same in the
oldest that is left as in what was stored last and is not removed. -/
def Answered (l : Left Info Auth) (m : Tokens Info Auth) : Op Info Auth → Prop
  | .storeAccessToken token _ => token.refreshToken.isSome
  | .readAccessToken value => Agrees Prod.fst (l.access value) (m.access value)
  | .readAuthentication value =>
    (m.access value).isSome ∧ Agrees Prod.snd (l.access value) (m.access value)
  | .readRefreshToken value =>
    (m.refresh value).isSome ∧ Agrees Prod.fst (l.refresh value) (m.refresh value)
  | .readAuthenticationForRefreshToken token =>
    (m.refresh token.value).isSome ∧
      Agrees Prod.snd (l.refresh token.value) (m.refresh token.value)
  | _ => True

/-- The collections hold what is left. The value of the refresh token is kept with an access
token a second time. -/
structure Refines (s : Store Info Auth) (l : Left Info Auth) : Prop where
  access : ∀ k, (s.accessTokens.under OAuth2AuthenticationAccessToken.tokenId k).map
    (fun b => (b.oAuth2AccessToken, b.authentication)) = l.access k
  refresh : ∀ k, (s.refreshTokens.under OAuth2AuthenticationRefreshToken.tokenId k).map
    (fun b => (b.oAuth2RefreshToken, b.authentication)) = l.refresh k
  refreshToken : ∀ d ∈ s.accessTokens.docs,
    d.body.oAuth2AccessToken.refreshToken.map RefreshToken.value = some d.body.refreshToken

variable {s : Store Info Auth} {l : Left Info Auth} {m : Tokens Info Auth}

lemma refines_empty : Refines (Store.empty : Store Info Auth) .empty :=
  ⟨fun _ => rfl, fun _ => rfl, fun d hd => by cases hd⟩

/-! ### One call -/

lemma Refines.findAccessToken (h : Refines s l) (k : String) :
    (findAccessToken s k).map (fun t => (t.oAuth2AccessToken, t.authentication)) =
      (l.access k).head? := by
  rw [← h.access k, List.head?_map, ← Collection.findOne_under, OAuth2TokenStore.findAccessToken]

lemma Refines.findRefreshToken (h : Refines s l) (k : String) :
    (findRefreshToken s k).map (fun t => (t.oAuth2RefreshToken, t.authentication)) =
      (l.refresh k).head? := by
  rw [← h.refresh k, List.head?_map, ← Collection.findOne_under, OAuth2TokenStore.findRefreshToken]

/-- A member of what is found is returned as the map says exactly when the map has a value and
the two agree. -/
lemma orThrow_eq_iff {α β γ : Type} (f : α → γ) (p : α → β) (f' : β → γ)
    (hf : ∀ a, f a = f' (p a)) (g : Option γ → Answer Info Auth) (hg : Function.Injective g)
    {o : Option α} {left : List β} (ho : o.map p = left.head?) (last : Option β) :
    (orThrow f o).map (fun b => g (some b)) = .ok (g (last.map f')) ↔
      last.isSome ∧ Agrees f' left last := by
  rw [Agrees, ← ho]
  cases o with
  | none => cases last <;> simp [orThrow, Except.map]
  | some a => cases last <;> simp [orThrow, Except.map, hg.eq_iff, hf]

/-- **One call is answered as the maps say** exactly when it is one of those. -/
theorem call_snd_iff (h : Refines s l) (op : Op Info Auth) :
    (call s op).2 = (m.call op).2 ↔ Answered l m op := by
  cases op with
  | storeAccessToken token authentication =>
    cases ht : token.refreshToken <;> simp [call, storeAccessToken, Tokens.call, Tokens.answer,
      Answered, OAuth2AuthenticationAccessToken.new, Except.map, ht]
  | storeRefreshToken | removeAccessToken | removeRefreshToken |
      removeAccessTokenUsingRefreshToken =>
    exact iff_of_true rfl trivial
  | readAccessToken value =>
    have hfound := congrArg (Option.map Prod.fst) (h.findAccessToken value)
    rw [Option.map_map] at hfound
    simp only [call, readAccessToken, Tokens.call, Tokens.answer, Answered, Agrees, ← hfound,
      Except.ok.injEq, Answer.accessToken.injEq]
    rfl
  | readAuthentication value =>
    exact orThrow_eq_iff _ _ Prod.snd (fun _ => rfl) .authentication
      (fun _ _ heq => Answer.authentication.inj heq) (h.findAccessToken value) (m.access value)
  | readRefreshToken value =>
    exact orThrow_eq_iff _ _ Prod.fst (fun _ => rfl) .refreshToken
      (fun _ _ heq => Answer.refreshToken.inj heq) (h.findRefreshToken value) (m.refresh value)
  | readAuthenticationForRefreshToken token =>
    exact orThrow_eq_iff _ _ Prod.snd (fun _ => rfl) .authentication
      (fun _ _ heq => Answer.authentication.inj heq) (h.findRefreshToken token.value)
      (m.refresh token.value)

/-- What is stored under a key becomes the last one that is left under it. -/
lemma map_under_saveNew {α β : Type} {key : α → String} {val : α → β}
    {c : Collection ObjectId α} {left : String → List β}
    (h : ∀ k, (c.under key k).map val = left k) (b : α) (k : String) :
    ((saveNew c b).under key k).map val =
      Function.update left (key b) (left (key b) ++ [val b]) k := by
  rw [saveNew, Collection.under_save_new rfl, List.map_append, h]
  by_cases hk : key b = k
  · subst hk
    simp
  · rw [if_neg hk, Function.update_of_ne (Ne.symm hk), List.map_nil, List.append_nil]

lemma map_under_removeKey {α β : Type} {key : α → String} {val : α → β}
    {c : Collection ObjectId α} {left : String → List β}
    (h : ∀ k, (c.under key k).map val = left k) (value k : String) :
    ((c.remove fun d => key d.body = value).under key k).map val =
      Function.update left value [] k := by
  rw [Collection.under_removeKey]
  by_cases hk : k = value
  · subst hk
    simp
  · rw [Function.update_of_ne hk, Function.update_of_ne hk, h]

/-- An access token stored with a refresh token is one document more. -/
lemma Refines.storeAccessToken (h : Refines s l) {token : AccessToken Info}
    (authentication : Auth) {t : Store Info Auth}
    (ht : storeAccessToken s token authentication = .ok t) :
    Refines t (l.apply (.storeAccessToken token authentication)) := by
  unfold OAuth2TokenStore.storeAccessToken OAuth2AuthenticationAccessToken.new at ht
  cases htoken : token.refreshToken with
  | none => simp [htoken, Except.map] at ht
  | some refreshToken =>
    simp only [htoken, Except.map, Except.ok.injEq] at ht
    subst ht
    -- the field `id` that is taken over is not read any more
    obtain ⟨id, hid⟩ : ∃ id, (match OAuth2TokenStore.findAccessToken s token.value with
        | some temp => ⟨temp.id, token.value, token, authentication, refreshToken.value⟩
        | none => ⟨none, token.value, token, authentication, refreshToken.value⟩ :
          OAuth2AuthenticationAccessToken Info Auth) =
        ⟨id, token.value, token, authentication, refreshToken.value⟩ := by
      cases OAuth2TokenStore.findAccessToken s token.value <;> exact ⟨_, rfl⟩
    refine ⟨fun k => ?_, h.refresh, fun d hd => ?_⟩
    · simp only [hid]
      exact map_under_saveNew h.access _ k
    · simp only [hid, saveNew] at hd
      rcases Collection.mem_save.mp hd with rfl | ⟨hd, -⟩
      · simp [htoken]
      · exact h.refreshToken d hd

lemma Refines.storeRefreshToken (h : Refines s l) (refreshToken : RefreshToken Info)
    (authentication : Auth) : Refines (storeRefreshToken s refreshToken authentication)
      (l.apply (.storeRefreshToken refreshToken authentication)) := by
  refine ⟨h.access, fun k => ?_, h.refreshToken⟩
  unfold OAuth2TokenStore.storeRefreshToken
  cases hfound : OAuth2TokenStore.findRefreshToken s
    (OAuth2AuthenticationRefreshToken.new refreshToken authentication :
      OAuth2AuthenticationRefreshToken Info Auth).tokenId <;>
    simp only [hfound] <;> exact map_under_saveNew h.refresh _ k

lemma Refines.removeAccessTokenUsingRefreshToken (h : Refines s l)
    (refreshToken : RefreshToken Info) :
    Refines (removeAccessTokenUsingRefreshToken s refreshToken)
      (l.apply (.removeAccessTokenUsingRefreshToken refreshToken)) := by
  refine ⟨fun k => ?_, h.refresh, fun d hd => h.refreshToken d (Collection.mem_remove.mp hd).1⟩
  simp only [OAuth2TokenStore.removeAccessTokenUsingRefreshToken, Left.apply, ← h.access k]
  rw [Collection.under_remove fun b : OAuth2AuthenticationAccessToken Info Auth =>
    decide (b.refreshToken = refreshToken.value), List.filter_map]
  refine congrArg (List.map _) (List.filter_congr fun b hb => ?_)
  -- the value that is kept with the document is that of the token itself
  obtain ⟨d, hd, rfl⟩ := Collection.mem_docs_of_mem_under hb
  have hvalue := h.refreshToken d hd
  simp only [Function.comp, hvalue, ne_eq, Option.some.injEq, decide_not]

/-- A call that does not throw leaves the collections in step with what is left. -/
theorem refines_call (h : Refines s l) (op : Op Info Auth) (ha : Answered l m op) :
    Refines (call s op).1 (l.apply op) := by
  cases op with
  | storeAccessToken token authentication =>
    have hanswer := (call_snd_iff (m := m) h _).mpr ha
    rw [call] at hanswer ⊢
    cases ht : storeAccessToken s token authentication with
    | error e => simp [ht, Tokens.call] at hanswer
    | ok t => exact h.storeAccessToken authentication ht
  | storeRefreshToken refreshToken authentication =>
    exact h.storeRefreshToken refreshToken authentication
  | removeAccessToken accessToken =>
    exact ⟨map_under_removeKey h.access _, h.refresh,
      fun d hd => h.refreshToken d (Collection.mem_remove.mp hd).1⟩
  | removeRefreshToken refreshToken =>
    exact ⟨h.access, map_under_removeKey h.refresh _, h.refreshToken⟩
  | removeAccessTokenUsingRefreshToken refreshToken =>
    exact h.removeAccessTokenUsingRefreshToken refreshToken
  | readAccessToken | readAuthentication | readRefreshToken |
      readAuthenticationForRefreshToken =>
    exact h

/-! ### Runs -/

/-- What is left and what the maps say, both after a call. -/
def advance (a : Left Info Auth × Tokens Info Auth) (op : Op Info Auth) :
    Left Info Auth × Tokens Info Auth := (a.1.apply op, a.2.apply op)

lemma answers_advance (l : Left Info Auth) (m : Tokens Info Auth) (ops : List (Op Info Auth)) :
    answers (fun a op => (advance a op, (a.2.call op).2)) (l, m) ops =
      answers Tokens.call m ops := by
  induction ops generalizing l m with
  | nil => rfl
  | cons op ops ih => exact congrArg _ (ih _ _)

/-- **When the token store refines two maps.** From the empty store, every call of a sequence is
answered as the maps say if and only if every access token that is stored has a refresh token,
and at every read the oldest that is left under the value agrees with what was stored last and
not removed; by `readAccessToken` both may be missing. -/
theorem answers_eq_iff (ops : List (Op Info Auth)) :
    answers call (Store.empty : Store Info Auth) ops = answers Tokens.call .empty ops ↔
      StepsMeet advance (fun a => Answered a.1 a.2) (.empty, .empty) ops := by
  rw [← answers_advance .empty]
  exact answers_eq_iff_stepsMeet (R := fun s a => Refines s a.1)
    (fun _ a op h => call_snd_iff (m := a.2) h op) (fun _ _ op h ha => refines_call h op ha)
    refines_empty ops

/-- On the empty store two calls throw: reading the authentication of a token that was never
stored, and storing a token without a refresh token. And a token that is stored again is read
with its first authentication. -/
theorem not_answers_readAuthentication :
    (answers call (Store.empty : Store Unit Unit) [.readAuthentication "a"] =
        [.error .nullPointer] ∧
      answers call (Store.empty : Store Unit Unit) [.readAuthentication "a"] ≠
        answers Tokens.call .empty [.readAuthentication "a"]) ∧
    (answers call (Store.empty : Store Unit Unit) [.storeAccessToken ⟨"a", none, ()⟩ ()] =
        [.error .nullPointer] ∧
      answers call (Store.empty : Store Unit Unit) [.storeAccessToken ⟨"a", none, ()⟩ ()] ≠
        answers Tokens.call .empty [.storeAccessToken ⟨"a", none, ()⟩ ()]) ∧
    answers call (Store.empty : Store Unit ℕ) [.storeRefreshToken ⟨"r", ()⟩ 1,
        .storeRefreshToken ⟨"r", ()⟩ 2, .readAuthenticationForRefreshToken ⟨"r", ()⟩] =
      [.ok .done, .ok .done, .ok (.authentication (some 1))] ∧
    answers Tokens.call (.empty : Tokens Unit ℕ) [.storeRefreshToken ⟨"r", ()⟩ 1,
        .storeRefreshToken ⟨"r", ()⟩ 2, .readAuthenticationForRefreshToken ⟨"r", ()⟩] =
      [.ok .done, .ok .done, .ok (.authentication (some 2))] := by
  have hread : answers Tokens.call (.empty : Tokens Unit Unit) [.readAuthentication "a"] =
      [.ok (.authentication none)] := rfl
  have hstore : answers Tokens.call (.empty : Tokens Unit Unit)
      [.storeAccessToken ⟨"a", none, ()⟩ ()] = [.ok .done] := rfl
  refine ⟨⟨rfl, ?_⟩, ⟨rfl, ?_⟩, rfl, rfl⟩
  · rw [hread]
    exact fun h => nomatch h
  · rw [hstore]
    exact fun h => nomatch h

end Logful.OAuth2TokenStore
