import Logful.JavaText
import Logful.SignedWords
import Logful.StringUtil

/-!
How long files are kept.

The time to live of the configuration is a count and a unit. It is read into seconds, and
`clearFiles` makes milliseconds of these and compares them with the age of a file; all of this is
computed in signed 64-bit integers.
-/

namespace Logful.Retention

open Logful.JavaText Logful.SignedWords Logful.StringUtil

/-- A `long`. -/
abbrev toLong (n : ℤ) : ℤ := wrap 64 n

/-! ### StringUtil.durationToSecond -/

def SECONDS_PER_DAY : ℤ := 24 * 3600

def durationToSecond (ttl : Option String) : Except String ℤ :=
  if isEmpty ttl then .error "No ttl specify!"
  else
    let chars := (valueOf ttl).toList
    match parseInt (.ofList chars.dropLast), chars.getLast? with
    | some value, some unit =>
      -- the last 16 bits are the unit: what they leave of a character above them is no digit
      if 0xFFFF < unit.toNat then .error "Value format error!"
      else if unit = 'm' then .ok (toLong (value * 60))
      else if unit = 'h' then .ok (toLong (value * 3600))
      else if unit = 'd' then .ok (toLong (value * SECONDS_PER_DAY))
      else if unit = 'w' then .ok (toLong (toLong (value * 7) * SECONDS_PER_DAY))
      else if unit = 'M' then .ok (toLong (toLong (value * 30) * SECONDS_PER_DAY))
      else if unit = 'y' then .ok (toLong (toLong (value * 360) * SECONDS_PER_DAY))
      else .error "Unknown unit!"
    | _, _ => .error "Value format error!"

/-! ### ServerProperties -/

structure ServerProperties where
  ttlSeconds : ℤ
  ttl : Option String
  deriving DecidableEq

/-- `setTtl`, or the message of its `IllegalArgumentException`. -/
def setTtl (p : ServerProperties) (ttl : Option String) : Except String ServerProperties :=
  match durationToSecond ttl with
  | .ok ttlSeconds => .ok { p with ttlSeconds := ttlSeconds, ttl := ttl }
  | .error message => .error message

def ServerProperties.expires (p : ServerProperties) : ℤ := p.ttlSeconds

/-! ### The age of a file -/

/-- What `visitFile` asks of a file. -/
structure FileAttributes where
  isRegularFile : Bool
  isHidden : Bool
  creationTime : ℤ
  deriving DecidableEq

/-- The variable `ttl` of `clearFiles`. -/
def ttlOf (p : ServerProperties) : ℤ := toLong (p.expires * 1000)

/-- Whether `visitFile` comes to `Files.delete`. -/
def due (ttl current : ℤ) (attrs : FileAttributes) : Bool :=
  attrs.isRegularFile && !attrs.isHidden &&
    decide (ttl ≤ toLong (current - attrs.creationTime))

/-! ### Durations -/

/-- What a time to live stands for: a count of a unit. -/
structure Duration where
  count : ℤ
  unit : ℤ
  deriving DecidableEq

/-- The seconds of the duration. -/
def Duration.seconds (d : Duration) : ℤ := d.count * d.unit

/-- The seconds of a unit. -/
def unitOf : Char → Option ℤ
  | 'm' => some 60
  | 'h' => some 3600
  | 'd' => some 86400
  | 'w' => some (7 * 86400)
  | 'M' => some (30 * 86400)
  | 'y' => some (360 * 86400)
  | _ => none

/-- The duration that is written in a text. -/
def Duration.read (ttl : String) : Option Duration :=
  (parseInt (.ofList ttl.toList.dropLast)).bind fun count =>
    (ttl.toList.getLast?.bind unitOf).map fun unit => ⟨count, unit⟩

lemma unitOf_range {ch : Char} {unit : ℤ} (h : unitOf ch = some unit) :
    0 < unit ∧ unit ≤ 360 * 86400 := by
  unfold unitOf at h
  split at h <;> cases h <;> omega

lemma parseInt_range {s : String} {n : ℤ} (h : parseInt s = some n) : InWord 32 n := by
  obtain ⟨-, hn⟩ := Option.filter_eq_some_iff.mp h
  exact of_decide_eq_true hn

/-- The counts are words of 32 bits, and no unit is above a year. -/
lemma Duration.range_of_read {ttl : String} {d : Duration} (h : read ttl = some d) :
    InWord 32 d.count ∧ 0 < d.unit ∧ d.unit ≤ 360 * 86400 := by
  obtain ⟨count, hcount, h⟩ := Option.bind_eq_some_iff.mp h
  obtain ⟨unit, hunit, rfl⟩ := Option.map_eq_some_iff.mp h
  obtain ⟨ch, -, hunit⟩ := Option.bind_eq_some_iff.mp hunit
  exact ⟨parseInt_range hcount, unitOf_range hunit⟩

/-- The seconds of a duration that is read are a `long`. -/
lemma toLong_mul {count k : ℤ} (hcount : InWord 32 count) (hpos : 0 ≤ k) (hk : k ≤ 360 * 86400) :
    toLong (count * k) = count * k := by
  obtain ⟨hlo, hhi⟩ := hcount
  refine wrap_of_inWord (by norm_num) ⟨?_, ?_⟩
  · have hle : -2 ^ 31 * k ≤ count * k := Int.mul_le_mul_of_nonneg_right hlo hpos
    omega
  · have hle : count * k ≤ 2 ^ 31 * k := Int.mul_le_mul_of_nonneg_right hhi.le hpos
    omega

/-- The texts that are accepted are those that a duration is read of, and the seconds are its
seconds. -/
lemma durationToSecond_eq_ok {ttl : String} {n : ℤ} (h : durationToSecond (some ttl) = .ok n) :
    ∃ d, Duration.read ttl = some d ∧ n = d.seconds := by
  unfold durationToSecond at h
  split_ifs at h
  simp only [valueOf] at h
  split at h
  · rename_i value unit hvalue hunit
    rw [Option.getD_some] at hvalue hunit
    have hrange := parseInt_range hvalue
    have hday (k : ℤ) (hpos : 0 ≤ k) (hk : k ≤ 360) :
        toLong (toLong (value * k) * SECONDS_PER_DAY) = value * (k * 86400) := by
      rw [toLong_mul hrange hpos (by omega), SECONDS_PER_DAY, mul_assoc]
      exact toLong_mul hrange (by omega) (by omega)
    have hread (k : ℤ) (hk : unitOf unit = some k) : Duration.read ttl = some ⟨value, k⟩ := by
      simp [Duration.read, hvalue, hunit, hk]
    split_ifs at h with _ hm hh hd hw hmonth hy <;> cases h
    · exact ⟨⟨value, 60⟩, hread 60 (hm ▸ rfl), toLong_mul hrange (by omega) (by omega)⟩
    · exact ⟨⟨value, 3600⟩, hread 3600 (hh ▸ rfl), toLong_mul hrange (by omega) (by omega)⟩
    · exact ⟨⟨value, 86400⟩, hread 86400 (hd ▸ rfl), toLong_mul hrange (by decide) (by decide)⟩
    · exact ⟨⟨value, 7 * 86400⟩, hread _ (hw ▸ rfl), hday 7 (by omega) (by omega)⟩
    · exact ⟨⟨value, 30 * 86400⟩, hread _ (hmonth ▸ rfl), hday 30 (by omega) (by omega)⟩
    · exact ⟨⟨value, 360 * 86400⟩, hread _ (hy ▸ rfl), hday 360 (by omega) (by omega)⟩
  · cases h

lemma seconds_of_setTtl {p q : ServerProperties} {ttl : String} (h : setTtl p (some ttl) = .ok q) :
    ∃ d, Duration.read ttl = some d ∧ q.expires = d.seconds := by
  unfold setTtl at h
  split at h
  · rename_i n hn
    cases h
    exact durationToSecond_eq_ok hn
  · cases h

/-! ### When the arithmetic is exact -/

/-- The seconds are positive and those of the duration, the milliseconds are a `long`, and what
is deleted at that time is what is at least as old as the duration. -/
structure Exact (p : ServerProperties) (d : Duration) (current : ℤ) (attrs : FileAttributes) :
    Prop where
  positive : 0 < p.expires
  seconds : p.expires = d.seconds
  milliseconds : InWord 64 (p.expires * 1000)
  deleted : due (ttlOf p) current attrs = true ↔ d.seconds * 1000 ≤ current - attrs.creationTime

/-- **When retention is exact.** With a time to live that is accepted, and a file that is no
younger than the current time, the arithmetic is exact exactly when the count is positive, the
milliseconds of the duration are below the bound of a `long`, and so are those of the file's age. -/
theorem exact_iff (p q : ServerProperties) (ttl : String) (current : ℤ) (attrs : FileAttributes)
    (haccepted : setTtl p (some ttl) = .ok q) (hcurrent : InWord 64 current)
    (hcreated : InWord 64 attrs.creationTime) (hle : attrs.creationTime ≤ current)
    (hregular : attrs.isRegularFile = true) (hhidden : attrs.isHidden = false) :
    ∃ d, Duration.read ttl = some d ∧
      (Exact q d current attrs ↔ 1 ≤ d.count ∧ d.seconds * 1000 < 2 ^ 63 ∧
        current - attrs.creationTime < 2 ^ 63) := by
  obtain ⟨d, hread, hseconds⟩ := seconds_of_setTtl haccepted
  obtain ⟨hcount, hunit, -⟩ := Duration.range_of_read hread
  have hage := wrap_sub (by norm_num) hcurrent hcreated hle
  have hdue : due (ttlOf q) current attrs = true ↔
      ttlOf q ≤ toLong (current - attrs.creationTime) := by
    simp [due, hregular, hhidden]
  have hpositive : 1 ≤ d.count ↔ 0 < d.seconds := by
    rw [Duration.seconds, mul_pos_iff_of_pos_right hunit]
    rfl
  refine ⟨d, hread, ?_⟩
  rw [hpositive]
  constructor
  · rintro ⟨hpos, -, hlong, hdeleted⟩
    rw [hseconds] at hpos hlong
    refine ⟨hpos, hlong.2, ?_⟩
    by_contra hold
    -- such an age comes out negative, and the file is kept
    have hkept : ¬ ttlOf q ≤ toLong (current - attrs.creationTime) := by
      rw [ttlOf, hseconds, toLong, wrap_of_inWord (by norm_num) hlong, toLong, hage, if_neg hold]
      obtain ⟨-, hcurrent⟩ := hcurrent
      obtain ⟨hcreated, -⟩ := hcreated
      omega
    rw [hdue, hseconds.symm] at hdeleted
    refine hkept (hdeleted.mpr ?_)
    rw [hseconds]
    obtain ⟨-, hbound⟩ := hlong
    omega
  · rintro ⟨hpos, hbound, hold⟩
    have hlong : InWord 64 (d.seconds * 1000) := ⟨by omega, hbound⟩
    refine ⟨by rwa [hseconds], hseconds, by rwa [hseconds], ?_⟩
    rw [hdue, ttlOf, hseconds, toLong, wrap_of_inWord (by norm_num) hlong, toLong, hage,
      if_pos hold]

/-! ### Concrete configurations -/

def unconfigured : ServerProperties := ⟨0, none⟩

/-- An upload that is waiting to be sent. -/
def createdAt (creationTime : ℤ) : FileAttributes := ⟨true, false, creationTime⟩

theorem exact_iff_twoDays :
    Exact ⟨172800, some "2d"⟩ ⟨2, 86400⟩ 1500000000000 (createdAt 1499900000000) := by
  obtain ⟨d, hread, hiff⟩ := exact_iff unconfigured ⟨172800, some "2d"⟩ "2d" 1500000000000
    (createdAt 1499900000000) (by decide) (by decide) (by decide) (by decide) rfl rfl
  have hd : Duration.read "2d" = some ⟨2, 86400⟩ := by decide
  rw [hd] at hread
  cases hread
  exact hiff.mpr ⟨by decide, by decide, by decide⟩

/-- A time to live of no days is accepted, and so is one of so many years that the milliseconds
come out negative; both delete a file that was created at the current time. -/
theorem not_exact_accepted :
    setTtl unconfigured (some "0d") = .ok ⟨0, some "0d"⟩ ∧
      due (ttlOf ⟨0, some "0d"⟩) 1500000000000 (createdAt 1500000000000) = true ∧
      ¬ Exact ⟨0, some "0d"⟩ ⟨0, 86400⟩ 1500000000000 (createdAt 1500000000000) ∧
      setTtl unconfigured (some "296533309y") =
        .ok ⟨9223372043136000, some "296533309y"⟩ ∧
      due (ttlOf ⟨9223372043136000, some "296533309y"⟩) 1500000000000
        (createdAt 1500000000000) = true ∧
      ¬ Exact ⟨9223372043136000, some "296533309y"⟩ ⟨296533309, 31104000⟩ 1500000000000
        (createdAt 1500000000000) := by
  refine ⟨by decide, by decide, fun h => ?_, by decide, by decide, fun h => ?_⟩
  · exact absurd h.positive (by decide)
  · exact absurd h.milliseconds (by decide)

end Logful.Retention
