import Logful.DateTimeUtil
import Logful.JavaText
import Logful.Outcome
import Logful.StringUtil

/-!
The queries that are built of the parameters of a request.

A number is looked at twice: `StringUtils.isNumeric` asks whether its characters are digits, and
then a parser reads it, which wants at least one of them and no more than fit into an `int`. The
level is read without being looked at before.
-/

namespace Logful.BaseRestController

open Logful.DateTimeUtil Logful.JavaText Logful.Outcome Logful.StringUtil

/-! ### Requests and queries -/

/-- `getParameter` of a request. -/
abbrev WebRequest := String → Option String

/-- What is called of other libraries: how a date is read, in milliseconds, unless this throws; and
whether a property has text, without which no sort is made of it. -/
structure Library where
  parse : String → Option ℤ
  hasText : String → Bool
  /-- The milliseconds that the time zone of the server is ahead. -/
  zoneOffset : ℤ

/-- The exceptions: the one that is answered with the status 400, and those that nobody catches. -/
inductive Thrown
  | badRequest
  | numberFormat
  | illegalArgument
  | invalidUsage
  deriving DecidableEq

inductive Criterion
  | is (s : String)
  | isInt (n : ℤ)
  | between (gte lte : ℤ)
  deriving DecidableEq

abbrev Criteria := List (String × Criterion)

def keys (criteria : Criteria) : List String := criteria.map Prod.fst

/-- `addCriteria`, which throws when there is a criterion for the key. -/
def addCriteria (key : String) (c : Criterion) (criteria : Criteria) : Except Thrown Criteria :=
  if key ∈ keys criteria then .error .invalidUsage else .ok (criteria ++ [(key, c)])

inductive Direction
  | ASC | DESC
  deriving DecidableEq

structure Query where
  criteria : Criteria
  order : Direction
  sort : String
  skip : ℤ
  limit : ℤ
  deriving DecidableEq

/-! ### QueryCondition -/

/-- `StringUtils.isNumeric`, of which null is not numeric and the empty string is. -/
def isNumeric : Option String → Bool
  | none => false
  | some s => s.toList.all fun ch => (digit ch).isSome

/-- A parameter that is parsed when it is numeric. -/
def intParameter (s : Option String) (default : ℤ) : Except Thrown ℤ :=
  if isNumeric s then
    match parseInt (valueOf s) with
    | some n => .ok n
    | none => .error .numberFormat
  else .ok default

structure QueryCondition where
  order : Direction
  sort : String
  limit : ℤ
  offset : ℤ
  deriving DecidableEq

def DEFAULT_LIMIT : ℤ := 20

def DEFAULT_OFFSET : ℤ := 0

/-- The constructor. -/
def QueryCondition.new (request : WebRequest) : Except Thrown QueryCondition :=
  let sort := if isEmpty (request "sort") then "_id" else valueOf (request "sort")
  let order :=
    if isEmpty (request "order") then .ASC
    else if equalsIgnoreCase (valueOf (request "order")) "asc" then .ASC
    else if equalsIgnoreCase (valueOf (request "order")) "desc" then .DESC
    else .ASC
  match intParameter (request "limit") DEFAULT_LIMIT with
  | .error e => .error e
  | .ok limit =>
    match intParameter (request "offset") DEFAULT_OFFSET with
    | .error e => .error e
    | .ok offset => .ok ⟨order, sort, limit, offset⟩

/-! ### BaseRestController.queryCondition -/

def FIELD_KEYS : List String :=
  ["id", "clientId", "uid", "alias", "model", "imei", "macAddress", "osVersion", "appId",
    "versionString"]

def addField (request : WebRequest) (criteria : Criteria) (key : String) :
    Except Thrown Criteria :=
  if isEmpty (request key) then .ok criteria
  else addCriteria key (.is (valueOf (request key))) criteria

/-- The platform is parsed when it is numeric, and zero stands for none. -/
def addPlatform (request : WebRequest) (criteria : Criteria) : Except Thrown Criteria :=
  match intParameter (request "platform") 0 with
  | .error e => .error e
  | .ok platform =>
    if platform ≠ 0 then addCriteria "platform" (.isInt platform) criteria else .ok criteria

/-- The criterion for the dates from one day to another. -/
def dateCriterion (lib : Library) (start endOf : ℤ) : Criterion :=
  .between (dayStart lib.zoneOffset start) (dayEnd lib.zoneOffset endOf)

/-- The `try` block of the dates, in which every exception becomes a `BadRequestException`. -/
def addDates (lib : Library) (request : WebRequest) (criteria : Criteria) :
    Except Thrown Criteria :=
  if isEmpty (request "startDate") || isEmpty (request "endDate") then .ok criteria
  else
    match lib.parse (valueOf (request "startDate")), lib.parse (valueOf (request "endDate")) with
    | some start, some endOf =>
      match addCriteria "date" (dateCriterion lib start endOf) criteria with
      | .error _ => .error .badRequest
      | .ok criteria => .ok criteria
    | _, _ => .error .badRequest

/-- `Short.parseShort`. -/
def parseShort (s : String) : Option ℤ := parseSigned 16 s

def addLevel (request : WebRequest) (criteria : Criteria) : Except Thrown Criteria :=
  if isEmpty (request "level") then .ok criteria
  else
    match parseShort (valueOf (request "level")) with
    | none => .error .numberFormat
    | some level =>
      if level ≠ 0 then addCriteria "level" (.isInt level) criteria else .ok criteria

/-- The constructor of a sort. -/
def newSort (lib : Library) (sort : String) : Except Thrown String :=
  if lib.hasText sort then .ok sort else .error .illegalArgument

def queryCondition (lib : Library) (request : WebRequest) : Except Thrown Query := do
  let condition ← QueryCondition.new request
  let criteria ← FIELD_KEYS.foldlM (addField request) []
  let criteria ← addPlatform request criteria
  let criteria ← addDates lib request criteria
  let criteria ← addLevel request criteria
  let sort ← newSort lib condition.sort
  return ⟨criteria, condition.order, sort, condition.offset, condition.limit⟩

/-! ### The guard and the parser -/

/-- A parameter that is no number in digits, or one with at least one digit that is an `int`. -/
def Readable (s : Option String) : Prop :=
  ∀ text ∈ s, isNumeric (some text) → text ≠ "" ∧ ∀ n ∈ digits text.toList, n < 2 ^ 31

/-- Digits are a number. -/
lemma digits_isSome {ds : List Char} (h : ds.all fun ch => (digit ch).isSome) (hne : ds ≠ []) :
    (digits ds).isSome := by
  have hfold : ∀ (l : List Char) (n : ℕ), (l.all fun ch => (digit ch).isSome) →
      (l.foldlM (fun n ch => (digit ch).map fun d => n * 10 + d) n).isSome := by
    intro l
    induction l with
    | nil => exact fun n _ => rfl
    | cons ch l ih =>
      intro n hl
      rw [List.all_cons, Bool.and_eq_true] at hl
      obtain ⟨d, hd⟩ := Option.isSome_iff_exists.mp hl.1
      rw [List.foldlM_cons, hd]
      exact ih _ hl.2
  obtain ⟨ch, l, rfl⟩ := List.exists_cons_of_ne_nil hne
  exact hfold _ 0 h

/-- Of digits there is no sign to be read. -/
lemma signedDigits_of_digits {ds : List Char} (h : ds.all fun ch => (digit ch).isSome) :
    signedDigits ds = (digits ds).map fun n : ℕ => (n : ℤ) := by
  cases ds with
  | nil => rfl
  | cons ch l =>
    have hch : (digit ch).isSome := (Bool.and_eq_true_iff.mp (List.all_cons .. ▸ h)).1
    unfold signedDigits
    split
    · next heq =>
      cases heq
      exact absurd hch (by decide)
    · next heq =>
      cases heq
      exact absurd hch (by decide)
    · cases digits (ch :: l) <;> rfl

/-- What passes the guard is parsed exactly when it has a digit and is an `int`. -/
lemma parseInt_isSome_iff {text : String} (h : isNumeric (some text) = true) :
    (parseInt text).isSome ↔ text ≠ "" ∧ ∀ n ∈ digits text.toList, n < 2 ^ 31 := by
  rw [parseInt, parseSigned, signedDigits_of_digits h]
  by_cases hempty : text = ""
  · subst hempty
    simp [digits]
  · have hne : text.toList ≠ [] := by simpa using hempty
    obtain ⟨n, hn⟩ := Option.isSome_iff_exists.mp (digits_isSome h hne)
    rw [hn, Option.map_some, Option.filter_some]
    have hlow : (-2 ^ (32 - 1) : ℤ) ≤ n := by omega
    simp only [hempty, ne_eq, not_false_eq_true, true_and, Option.mem_some_iff, forall_eq', hlow]
    split_ifs with hlt
    · simpa using hlt
    · simpa using hlt

lemma intParameter_eq (s : Option String) (default : ℤ) :
    (Readable s ∧ ∃ n, intParameter s default = .ok n) ∨
      (¬ Readable s ∧ intParameter s default = .error .numberFormat) := by
  unfold intParameter
  cases hnumeric : isNumeric s with
  | false =>
    refine .inl ⟨fun text htext h => ?_, default, rfl⟩
    rw [← Option.mem_def.mp htext, hnumeric] at h
    cases h
  | true =>
    cases s with
    | none => cases hnumeric
    | some text =>
      have hiff := parseInt_isSome_iff hnumeric
      have hreadable : Readable (some text) ↔ (parseInt text).isSome := by
        rw [hiff]
        exact ⟨fun h => h text rfl hnumeric, fun h t ht _ => Option.mem_some_iff.mp ht ▸ h⟩
      rw [hreadable]
      simp only [valueOf, Option.getD_some, if_true]
      cases hparse : parseInt text with
      | none => exact .inr ⟨by simp, rfl⟩
      | some n => exact .inl ⟨rfl, n, rfl⟩

/-! ### The stages of a query -/

/-- A stage that is passed exactly when `P` holds, with a result for which `post` holds, and else
ends in an exception. -/
def Stage {α : Type} (P : Prop) (e : Thrown) (post : α → Prop) (x : Except Thrown α) : Prop :=
  (P ∧ ∃ a, x = .ok a ∧ post a) ∨ (¬ P ∧ x = .error e)

lemma addCriteria_new {key : String} {c : Criterion} {criteria : Criteria}
    (h : key ∉ keys criteria) : addCriteria key c criteria = .ok (criteria ++ [(key, c)]) :=
  if_neg h

lemma keys_append (criteria : Criteria) (key : String) (c : Criterion) :
    keys (criteria ++ [(key, c)]) = keys criteria ++ [key] := by
  simp [keys]

/-- Keys that are different, and have no criterion before, are all added. -/
lemma addFields_ok (request : WebRequest) (l : List String) (hl : l.Nodup) (criteria : Criteria)
    (hnew : ∀ key ∈ l, key ∉ keys criteria) :
    ∃ criteria', l.foldlM (addField request) criteria = .ok criteria' ∧
      keys criteria' ⊆ keys criteria ++ l := by
  induction l generalizing criteria with
  | nil => exact ⟨criteria, rfl, by simp⟩
  | cons key l ih =>
    obtain ⟨hkey, hl⟩ := List.nodup_cons.mp hl
    have hrest : ∀ k ∈ l, k ∉ keys criteria := fun k hk => hnew k (List.mem_cons_of_mem key hk)
    rw [List.foldlM_cons]
    unfold addField
    split_ifs
    · obtain ⟨criteria', hok, hkeys⟩ := ih hl criteria hrest
      refine ⟨criteria', hok, fun k hk => ?_⟩
      rw [List.append_cons]
      rcases List.mem_append.mp (hkeys hk) with h | h
      · exact List.mem_append_left _ (List.mem_append_left _ h)
      · exact List.mem_append_right _ h
    · rw [addCriteria_new (hnew key List.mem_cons_self)]
      have hnext : ∀ k ∈ l, k ∉ keys (criteria ++ [(key, .is (valueOf (request key)))]) := by
        intro k hk
        rw [keys_append, List.mem_append, List.mem_singleton, not_or]
        exact ⟨hrest k hk, ne_of_mem_of_not_mem hk hkey⟩
      obtain ⟨criteria', hok, hkeys⟩ := ih hl _ hnext
      refine ⟨criteria', hok, ?_⟩
      rwa [keys_append, List.append_assoc, List.singleton_append] at hkeys

/-- The sort of a request: `_id` when it has none. -/
def sortOf (request : WebRequest) : String :=
  if isEmpty (request "sort") then "_id" else valueOf (request "sort")

lemma new_stage (request : WebRequest) :
    Stage (Readable (request "limit") ∧ Readable (request "offset")) .numberFormat
      (fun condition : QueryCondition => condition.sort = sortOf request)
      (QueryCondition.new request) := by
  unfold QueryCondition.new
  rcases intParameter_eq (request "limit") DEFAULT_LIMIT with ⟨hlimit, n, hn⟩ | ⟨hlimit, hn⟩
  · rcases intParameter_eq (request "offset") DEFAULT_OFFSET with ⟨hoffset, k, hk⟩ | ⟨hoffset, hk⟩
    · simp only [hn, hk]
      exact .inl ⟨⟨hlimit, hoffset⟩, _, rfl, rfl⟩
    · simp only [hn, hk]
      exact .inr ⟨fun h => hoffset h.2, rfl⟩
  · simp only [hn]
    exact .inr ⟨fun h => hlimit h.1, rfl⟩

lemma addPlatform_stage (request : WebRequest) {criteria : Criteria}
    (hnew : "platform" ∉ keys criteria) :
    Stage (Readable (request "platform")) .numberFormat
      (fun criteria' => keys criteria' ⊆ keys criteria ++ ["platform"])
      (addPlatform request criteria) := by
  unfold addPlatform
  rcases intParameter_eq (request "platform") 0 with ⟨hplatform, n, hn⟩ | ⟨hplatform, hn⟩
  · simp only [hn]
    split_ifs
    · rw [addCriteria_new hnew]
      exact .inl ⟨hplatform, _, rfl, by simp [keys_append]⟩
    · exact .inl ⟨hplatform, _, rfl, List.subset_append_left _ _⟩
  · simp only [hn]
    exact .inr ⟨hplatform, rfl⟩

/-- There are two dates, and one of them is none. -/
def DatesFail (lib : Library) (request : WebRequest) : Prop :=
  isEmpty (request "startDate") = false ∧ isEmpty (request "endDate") = false ∧
    (lib.parse (valueOf (request "startDate")) = none ∨
      lib.parse (valueOf (request "endDate")) = none)

lemma addDates_stage (lib : Library) (request : WebRequest) {criteria : Criteria}
    (hnew : "date" ∉ keys criteria) :
    Stage (¬ DatesFail lib request) .badRequest
      (fun criteria' => keys criteria' ⊆ keys criteria ++ ["date"])
      (addDates lib request criteria) := by
  unfold addDates Stage
  rw [not_not]
  split_ifs with hempty
  · refine .inl ⟨fun h => ?_, _, rfl, List.subset_append_left _ _⟩
    rw [h.1, h.2.1] at hempty
    cases hempty
  · rw [Bool.or_eq_true, not_or, Bool.not_eq_true, Bool.not_eq_true] at hempty
    split
    · next start endOf hstart hend =>
      rw [addCriteria_new hnew]
      refine .inl ⟨fun h => ?_, _, rfl, by simp [keys_append]⟩
      rcases h.2.2 with h | h
      · rw [hstart] at h
        cases h
      · rw [hend] at h
        cases h
    · next hnone =>
      refine .inr ⟨⟨hempty.1, hempty.2, ?_⟩, rfl⟩
      by_contra hsome
      rw [not_or] at hsome
      obtain ⟨start, hstart⟩ := Option.ne_none_iff_exists'.mp hsome.1
      obtain ⟨endOf, hend⟩ := Option.ne_none_iff_exists'.mp hsome.2
      exact hnone start endOf hstart hend

/-- The level is absent or empty, or it is a `short`. -/
def LevelReadable (request : WebRequest) : Prop :=
  isEmpty (request "level") = true ∨ (parseShort (valueOf (request "level"))).isSome

lemma addLevel_stage (request : WebRequest) {criteria : Criteria}
    (hnew : "level" ∉ keys criteria) :
    Stage (LevelReadable request) .numberFormat (fun _ => True) (addLevel request criteria) := by
  unfold addLevel Stage LevelReadable
  split_ifs with hempty
  · exact .inl ⟨.inl hempty, _, rfl, trivial⟩
  · rw [or_iff_right hempty]
    cases hlevel : parseShort (valueOf (request "level")) with
    | none => exact .inr ⟨by simp, rfl⟩
    | some level =>
      simp only
      split_ifs
      · rw [addCriteria_new hnew]
        exact .inl ⟨rfl, _, rfl, trivial⟩
      · exact .inl ⟨rfl, _, rfl, trivial⟩

/-! ### Which requests crash the server -/

/-- A query is returned, or the request is answered with the status 400. -/
def Answered (result : Except Thrown Query) : Prop :=
  Holds result (fun _ => True) fun e => e = .badRequest

/-- **Which requests are answered.** A request does not crash the server exactly when its limit,
offset and platform are no numbers in digits or are in the range of an `int` and not empty, and
either its dates are refused, or its level is a `short`, if there is one, and its sort has text. -/
theorem answered_iff (lib : Library) (hid : lib.hasText "_id" = true) (request : WebRequest) :
    Answered (queryCondition lib request) ↔
      (Readable (request "limit") ∧ Readable (request "offset")) ∧
        Readable (request "platform") ∧
        (DatesFail lib request ∨ LevelReadable request ∧
          (isEmpty (request "sort") = true ∨ lib.hasText (valueOf (request "sort")) = true)) := by
  have hsort : lib.hasText (sortOf request) = true ↔
      (isEmpty (request "sort") = true ∨ lib.hasText (valueOf (request "sort")) = true) := by
    unfold sortOf
    split_ifs with hempty
    · exact iff_of_true hid (.inl hempty)
    · rw [or_iff_right hempty]
  unfold queryCondition
  rcases new_stage request with ⟨hnew, condition, hok, hcondition⟩ | ⟨hnew, herr⟩
  swap
  · rw [herr]
    exact iff_of_false (Thrown.noConfusion) fun h => hnew h.1
  rw [hok, and_iff_right hnew]
  obtain ⟨fields, hfields, hkeys⟩ := addFields_ok request FIELD_KEYS (by decide) [] (by simp [keys])
  have hout : ∀ key ∉ FIELD_KEYS, key ∉ keys fields := fun key hkey hmem => hkey (hkeys hmem)
  rcases addPlatform_stage request (hout "platform" (by decide)) with
    ⟨hplatform, criteria, hok, hcriteria⟩ | ⟨hplatform, herr⟩
  swap
  · simp only [hfields, herr, bind, Except.bind]
    exact iff_of_false (Thrown.noConfusion) fun h => hplatform h.1
  rw [and_iff_right hplatform]
  have hdate : "date" ∉ keys criteria := fun hmem => by
    rcases List.mem_append.mp (hcriteria hmem) with h | h
    · exact hout "date" (by decide) h
    · exact absurd h (by decide)
  rcases addDates_stage lib request hdate with ⟨hdates, dated, hdated, hmore⟩ | ⟨hdates, herr⟩
  swap
  · simp only [hfields, hok, herr, bind, Except.bind]
    exact iff_of_true rfl (.inl (not_not.mp hdates))
  rw [or_iff_right hdates]
  have hlevel : "level" ∉ keys dated := fun hmem => by
    rcases List.mem_append.mp (hmore hmem) with h | h
    · rcases List.mem_append.mp (hcriteria h) with h | h
      · exact hout "level" (by decide) h
      · exact absurd h (by decide)
    · exact absurd h (by decide)
  rcases addLevel_stage request hlevel with ⟨hreadable, levelled, hlevelled, -⟩ | ⟨hreadable, herr⟩
  swap
  · simp only [hfields, hok, hdated, herr, bind, Except.bind]
    exact iff_of_false (Thrown.noConfusion) fun h => hreadable h.1
  rw [and_iff_right hreadable, ← hsort, ← hcondition]
  simp only [hfields, hok, hdated, hlevelled, bind, Except.bind, newSort]
  split_ifs with htext
  · exact iff_of_true trivial htext
  · exact iff_of_false (Thrown.noConfusion) htext

/-- What is promised of every request: it is answered, and what passes the guard of a number is
then parsed. -/
structure NeverCrashes (lib : Library) (request : WebRequest) : Prop where
  answered : Answered (queryCondition lib request)
  parsed : ∀ key ∈ ["limit", "offset", "platform"], ∀ text ∈ request key,
    isNumeric (some text) = true → (parseInt text).isSome

/-- **Which requests do not crash the server**: those whose limit, offset and platform are no
numbers in digits or are in the range of an `int` and not empty, when either the dates are refused,
or the level is a `short`, if there is one, and the sort has text, if there is one. -/
theorem neverCrashes_iff (lib : Library) (hid : lib.hasText "_id" = true) (request : WebRequest) :
    NeverCrashes lib request ↔
      (Readable (request "limit") ∧ Readable (request "offset")) ∧
        Readable (request "platform") ∧
        (DatesFail lib request ∨ LevelReadable request ∧
          (isEmpty (request "sort") = true ∨ lib.hasText (valueOf (request "sort")) = true)) := by
  rw [← answered_iff lib hid request]
  constructor
  · exact NeverCrashes.answered
  · intro hanswered
    obtain ⟨⟨hlimit, hoffset⟩, hplatform, -⟩ := (answered_iff lib hid request).mp hanswered
    refine ⟨hanswered, fun key hkey text htext hnumeric => (parseInt_isSome_iff hnumeric).mpr ?_⟩
    simp only [List.mem_cons, List.not_mem_nil, or_false] at hkey
    rcases hkey with rfl | rfl | rfl
    · exact hlimit text htext hnumeric
    · exact hoffset text htext hnumeric
    · exact hplatform text htext hnumeric

/-- No text is a date; a property of blanks has no text. -/
def plainLibrary : Library where
  parse := fun _ => none
  hasText := fun s => s.toList.any fun ch => ch != ' '
  zoneOffset := 0

/-- The request with one parameter. -/
def oneParameter (key value : String) : WebRequest := fun k => if k = key then some value else none

theorem neverCrashes_iff_limit : NeverCrashes plainLibrary (oneParameter "limit" "10") := by
  have hten : Readable (oneParameter "limit" "10" "limit") := by
    intro text htext _
    cases htext
    exact ⟨by decide, by simp [digits, digit, digitZeros]⟩
  have hnone (key : String) (hkey : key ≠ "limit") :
      Readable (oneParameter "limit" "10" key) := by
    intro text htext
    rw [oneParameter, if_neg hkey] at htext
    cases htext
  exact (neverCrashes_iff plainLibrary (by decide) (oneParameter "limit" "10")).mpr
    ⟨⟨hten, hnone "offset" (by decide)⟩, hnone "platform" (by decide),
      .inr ⟨.inl rfl, .inl rfl⟩⟩

/-- An empty limit, an offset that is no `int`, a level that is no number and a sort of blanks are
exceptions that nobody catches. -/
theorem not_neverCrashes_emptyLimit :
    queryCondition plainLibrary (oneParameter "limit" "") = .error .numberFormat ∧
      queryCondition plainLibrary (oneParameter "offset" "2147483648") = .error .numberFormat ∧
      queryCondition plainLibrary (oneParameter "level" "info") = .error .numberFormat ∧
      queryCondition plainLibrary (oneParameter "sort" " ") = .error .illegalArgument ∧
      ¬ NeverCrashes plainLibrary (oneParameter "limit" "") := by
  have hempty : queryCondition plainLibrary (oneParameter "limit" "") = .error .numberFormat := by
    decide
  refine ⟨hempty, by decide, by decide, by decide, fun h => ?_⟩
  have hanswered := h.answered
  rw [hempty] at hanswered
  cases hanswered

/-! ### The filter of the dates -/

/-- Whether a date meets a criterion. -/
def Criterion.Admits (time : ℤ) : Criterion → Prop
  | .between gte lte => gte ≤ time ∧ time ≤ lte
  | _ => False

lemma addCriteria_subset (key : String) (c : Criterion) (criteria : Criteria) :
    Holds (addCriteria key c criteria) (fun criteria' => criteria ⊆ criteria') (fun _ => True) := by
  unfold addCriteria
  split_ifs
  · trivial
  · exact List.subset_append_left _ _

/-- The level takes no criterion away. -/
lemma addLevel_subset (request : WebRequest) (criteria : Criteria) :
    Holds (addLevel request criteria) (fun criteria' => criteria ⊆ criteria') (fun _ => True) := by
  unfold addLevel
  split_ifs
  · exact List.Subset.refl _
  · split
    · trivial
    · split_ifs
      · exact addCriteria_subset _ _ _
      · exact List.Subset.refl _

/-- The query for two dates has their criterion. -/
lemma date_mem_criteria (lib : Library) (request : WebRequest)
    (hstart : isEmpty (request "startDate") = false)
    (hend : isEmpty (request "endDate") = false) :
    Holds (queryCondition lib request)
      (fun query => ∃ start endOf, lib.parse (valueOf (request "startDate")) = some start ∧
        lib.parse (valueOf (request "endDate")) = some endOf ∧
        ("date", dateCriterion lib start endOf) ∈ query.criteria) (fun _ => True) := by
  refine (holds_true _).bind fun condition _ => (holds_true _).bind fun fields _ =>
    (holds_true _).bind fun criteria _ => Holds.bind (Q := fun dated => ∃ start endOf,
      lib.parse (valueOf (request "startDate")) = some start ∧
      lib.parse (valueOf (request "endDate")) = some endOf ∧
      ("date", dateCriterion lib start endOf) ∈ dated) ?_ fun dated hdated =>
    Holds.bind (Q := fun levelled => dated ⊆ levelled) ?_ fun levelled hsub =>
      (holds_true _).bind fun sort _ => ?_
  · unfold addDates
    rw [hstart, hend]
    simp only [Bool.or_self, Bool.false_eq_true, if_false]
    split
    · next start endOf hs he =>
      unfold addCriteria
      by_cases hmem : "date" ∈ keys criteria
      · rw [if_pos hmem]
        trivial
      · rw [if_neg hmem]
        exact ⟨start, endOf, hs, he, List.mem_append_right _ (List.mem_singleton_self _)⟩
    · trivial
  · exact addLevel_subset request dated
  · obtain ⟨start, endOf, hs, he, hmem⟩ := hdated
    exact ⟨start, endOf, hs, he, hsub hmem⟩

/-- The instant is on one of the days from that of `start` to that of `endOf`. -/
def OnDays (lib : Library) (start endOf time : ℤ) : Prop :=
  dayOf lib.zoneOffset start ≤ dayOf lib.zoneOffset time ∧
    dayOf lib.zoneOffset time ≤ dayOf lib.zoneOffset endOf

/-- What the criterion leaves out of these days. -/
lemma admits_iff (lib : Library) (start endOf time : ℤ) :
    (dateCriterion lib start endOf).Admits time ↔ OnDays lib start endOf time ∧
      ¬ (dayOf lib.zoneOffset endOf = dayOf lib.zoneOffset time ∧
        InLastSecond lib.zoneOffset time) := by
  have hend : time ≤ dayEnd lib.zoneOffset endOf ↔
      dayOf lib.zoneOffset time ≤ dayOf lib.zoneOffset endOf ∧
        ¬ (dayOf lib.zoneOffset endOf = dayOf lib.zoneOffset time ∧
          InLastSecond lib.zoneOffset time) := by
    rw [← not_lt, dayEnd_lt_iff, not_or, not_lt]
  change dayStart lib.zoneOffset start ≤ time ∧ time ≤ dayEnd lib.zoneOffset endOf ↔ _
  rw [dayStart_le_iff, hend, OnDays, and_assoc]

/-- Of `n` days in turn, the range of just one has the instant. -/
def Partitioned (lib : Library) (days : ℕ → ℤ) (n : ℕ) (time : ℤ) : Prop :=
  ∃! k, k < n ∧ (dateCriterion lib (days k) (days k)).Admits time

/-- On the range of one day are the instants of the day, but those late in its last second. -/
lemma admits_day_iff (lib : Library) (date time : ℤ) :
    (dateCriterion lib date date).Admits time ↔
      dayOf lib.zoneOffset date = dayOf lib.zoneOffset time ∧
        ¬ InLastSecond lib.zoneOffset time := by
  rw [admits_iff, OnDays, ← le_antisymm_iff]
  constructor
  · rintro ⟨hday, hlate⟩
    exact ⟨hday, fun h => hlate ⟨hday, h⟩⟩
  · rintro ⟨hday, hlate⟩
    exact ⟨hday, fun h => hlate h.2⟩

/-- Each of the days in turn has the number that its place gives it. -/
lemma dayOf_days {lib : Library} {days : ℕ → ℤ}
    (hnext : ∀ k, dayOf lib.zoneOffset (days (k + 1)) = dayOf lib.zoneOffset (days k) + 1) (k : ℕ) :
    dayOf lib.zoneOffset (days k) = dayOf lib.zoneOffset (days 0) + k := by
  induction k with
  | zero => simp
  | succ k ih =>
    rw [hnext, ih]
    push_cast
    omega

/-- **What the filter of the dates covers.** The criterion for two dates holds of an instant exactly
on the days from the one to the other, just when the instant is not late in the last second of the
second day. And of days in turn, one of which is that of the instant, just one has it in its range
exactly when it is not late in the last second of its day. -/
theorem filter_exact_iff (lib : Library) (time : ℤ) :
    (∀ start endOf, start ≤ endOf →
      (((dateCriterion lib start endOf).Admits time ↔ OnDays lib start endOf time) ↔
        ¬ (dayOf lib.zoneOffset endOf = dayOf lib.zoneOffset time ∧
          InLastSecond lib.zoneOffset time))) ∧
      ∀ (days : ℕ → ℤ) (n : ℕ),
        (∀ k, dayOf lib.zoneOffset (days (k + 1)) = dayOf lib.zoneOffset (days k) + 1) →
        dayOf lib.zoneOffset (days 0) ≤ dayOf lib.zoneOffset time →
        dayOf lib.zoneOffset time < dayOf lib.zoneOffset (days 0) + n →
        (Partitioned lib days n time ↔ ¬ InLastSecond lib.zoneOffset time) := by
  constructor
  · intro start endOf hle
    rw [admits_iff]
    constructor
    · rintro hiff ⟨hday, hlate⟩
      have hstart : dayOf lib.zoneOffset start ≤ dayOf lib.zoneOffset endOf := by
        have hbegin : dayStart lib.zoneOffset start ≤ start := dayStart_le_iff.mpr le_rfl
        exact dayStart_le_iff.mp (hbegin.trans hle)
      exact (hiff.mpr ⟨hday ▸ hstart, hday.ge⟩).2 ⟨hday, hlate⟩
    · exact fun hnot => and_iff_left hnot
  · intro days n hnext hfirst hlast
    have hplace := dayOf_days hnext
    constructor
    · rintro ⟨k, ⟨-, hk⟩, -⟩
      exact ((admits_day_iff lib _ _).mp hk).2
    · intro hlate
      -- the place of the day of the instant
      obtain ⟨k, hk⟩ := Int.eq_ofNat_of_zero_le (sub_nonneg.mpr hfirst)
      refine ⟨k, ⟨by omega, (admits_day_iff lib _ _).mpr ⟨?_, hlate⟩⟩, ?_⟩
      · rw [hplace]
        omega
      · rintro j ⟨-, hj⟩
        have hday := ((admits_day_iff lib _ _).mp hj).1
        rw [hplace] at hday
        omega

/-- A record of the last second of a day, half a second after its beginning: the range of the day
does not have it. -/
theorem not_filter_exact_lastSecond :
    OnDays plainLibrary 1456790400000 1456790400000 1456876799500 ∧
      ¬ (dateCriterion plainLibrary 1456790400000 1456790400000).Admits 1456876799500 ∧
      ¬ ∀ start endOf time, start ≤ endOf →
        ((dateCriterion plainLibrary start endOf).Admits time ↔
          OnDays plainLibrary start endOf time) := by
  have hon : OnDays plainLibrary 1456790400000 1456790400000 1456876799500 := ⟨by decide, by decide⟩
  have hout : ¬ (dateCriterion plainLibrary 1456790400000 1456790400000).Admits 1456876799500 := by
    rintro ⟨-, hle⟩
    exact absurd hle (by decide)
  exact ⟨hon, hout, fun h => hout ((h 1456790400000 1456790400000 1456876799500 le_rfl).mpr hon)⟩

end Logful.BaseRestController
