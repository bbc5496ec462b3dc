import VerigenceSecurity.OnboardingRetry

/-! # Mobile numbers

`_indian_mobile` keeps what Python calls a digit, the database compares what it calls a
digit. They agree on the inputs whose digits are those of ASCII, and on no others.
-/

namespace VerigenceSecurity
set_option autoImplicit false

open Transaction Program Relational

/-- What Python documents of `str.isdigit` and `unicodedata.digit` on ASCII. -/
structure DigitRules (rules : TextRules) (digitValue : Char → Nat) : Prop where
  ascii : ∀ c : Char, c.toNat < 128 → rules.isDigit c = c.isDigit
  value : ∀ c : Char, c.isDigit = true → digitValue c = c.toNat - '0'.toNat

/-- The digits of the input without the prefix `+91`, `91` or `0`. -/
def nationalDigits (rules : TextRules) (value : String) : List Char :=
  let found := value.toList.filter rules.isDigit
  if found.length = 12 ∧ ['9', '1'].isPrefixOf found = true then found.drop 2
  else if found.length = 11 ∧ ['0'].isPrefixOf found = true then found.drop 1
  else found

def nationalNumber (rules : TextRules) (digitValue : Char → Nat) (value : String) : List Nat :=
  (nationalDigits rules value).map digitValue

def AsciiDigits (rules : TextRules) (value : String) : Prop :=
  ∀ c ∈ value.toList, rules.isDigit c = true → c.isDigit = true

def CanonicalMobile (mobile : String) : Prop :=
  ∃ digits : List Char, mobile = "+91" ++ String.ofList digits ∧ digits.length = 10 ∧
    (∀ c ∈ digits, c.isDigit = true) ∧ ∃ c ∈ digits.head?, c ∈ ['6', '7', '8', '9']

/-- What normalisation promises of two inputs and what it makes of them. -/
structure Normalised (rules : TextRules) (digitValue : Char → Nat)
    (value other mobile otherMobile : String) : Prop where
  canonical : CanonicalMobile mobile ∧ CanonicalMobile otherMobile
  stable : indianMobile rules mobile = .ok mobile ∧
    indianMobile rules otherMobile = .ok otherMobile
  agree : nationalNumber rules digitValue value = nationalNumber rules digitValue other ↔
    mobile = otherMobile
  /-- Users with these numbers share an entry of the unique index. -/
  indexed : ∀ u v : User, u.primaryMobile = some mobile → v.primaryMobile = some otherMobile →
    ((∃ key, (Index.mobile, key) ∈ Row.entries u ∧ (Index.mobile, key) ∈ Row.entries v) ↔
      nationalNumber rules digitValue value = nationalNumber rules digitValue other)
  /-- The duplicate search finds one when the other is registered. -/
  searched : ∀ db : Database, db.users.rows.filterMap (·.primaryMobile) = [mobile] →
    (db.mobileRegistered (removePrefix otherMobile "+") = true ↔
      nationalNumber rules digitValue value = nationalNumber rules digitValue other)

/-! ## What is accepted -/

section Accepted

variable {rules : TextRules} {digitValue : Char → Nat} {value other mobile otherMobile : String}

theorem indianMobile_eq_ok_iff : indianMobile rules value = .ok mobile ↔
    (nationalDigits rules value).length = 10 ∧
      (∃ c ∈ (nationalDigits rules value).head?, c ∈ ['6', '7', '8', '9']) ∧
      mobile = "+91" ++ String.ofList (nationalDigits rules value) := by
  have hsame : indianMobile rules value =
      if (nationalDigits rules value).length ≠ 10 ∨
          (nationalDigits rules value).head?.all (fun c => decide (c ∉ ['6', '7', '8', '9'])) then
        .error (.valueError "A valid 10-digit Indian mobile number is required")
      else .ok ("+91" ++ String.ofList (nationalDigits rules value)) := by
    unfold indianMobile nationalDigits
    rfl
  rw [hsame]
  generalize nationalDigits rules value = digits
  cases digits with
  | nil => simp
  | cons c digits =>
    by_cases hwrong : (c :: digits).length ≠ 10 ∨
        (c :: digits).head?.all (fun c => decide (c ∉ ['6', '7', '8', '9']))
    · rw [if_pos hwrong]
      simp only [List.head?_cons, Option.all_some, decide_eq_true_eq, Option.mem_some_iff] at hwrong ⊢
      constructor
      · intro herror
        cases herror
      · rintro ⟨hlength, ⟨_, rfl, hfirst⟩, _⟩
        exact absurd hwrong (not_or.mpr ⟨not_not_intro hlength, not_not_intro hfirst⟩)
    · rw [if_neg hwrong]
      simp only [List.head?_cons, Option.all_some, decide_eq_true_eq, Option.mem_some_iff,
        not_or, not_not] at hwrong ⊢
      constructor
      · intro hok
        exact ⟨hwrong.1, ⟨c, rfl, hwrong.2⟩, (Except.ok.inj hok).symm⟩
      · rintro ⟨_, _, rfl⟩
        rfl

theorem nationalDigits_subset (c : Char) (hc : c ∈ nationalDigits rules value) :
    c ∈ value.toList ∧ rules.isDigit c = true := by
  have hfound : c ∈ value.toList.filter rules.isDigit := by
    unfold nationalDigits at hc
    simp only at hc
    split at hc
    · exact List.mem_of_mem_drop hc
    · split at hc
      · exact List.mem_of_mem_drop hc
      · exact hc
  exact List.mem_filter.mp hfound

/-- The digits that are dropped as a prefix are `9`, `1` and `0`. -/
theorem ascii_of_nationalDigits (h : ∀ c ∈ nationalDigits rules value, c.isDigit = true) :
    AsciiDigits rules value := by
  intro c hc hdigit
  have hfound : c ∈ value.toList.filter rules.isDigit := List.mem_filter.mpr ⟨hc, hdigit⟩
  unfold nationalDigits at h
  generalize value.toList.filter rules.isDigit = found at h hfound
  simp only at h
  split at h
  · rename_i hprefix
    obtain ⟨rest, rfl⟩ := List.isPrefixOf_iff_prefix.mp hprefix.2
    simp only [List.cons_append, List.nil_append, List.mem_cons] at hfound
    rcases hfound with rfl | rfl | hrest
    · decide
    · decide
    · exact h c hrest
  · split at h
    · rename_i hprefix
      obtain ⟨rest, rfl⟩ := List.isPrefixOf_iff_prefix.mp hprefix.2
      simp only [List.cons_append, List.nil_append, List.mem_cons] at hfound
      rcases hfound with rfl | hrest
      · decide
      · exact h c hrest
    · exact h c hfound

theorem asciiDigits_iff :
    AsciiDigits rules value ↔ ∀ c ∈ nationalDigits rules value, c.isDigit = true := by
  refine ⟨fun h c hc => ?_, ascii_of_nationalDigits⟩
  obtain ⟨hvalue, hdigit⟩ := nationalDigits_subset c hc
  exact h c hvalue hdigit

theorem canonicalMobile_iff (h : indianMobile rules value = .ok mobile) :
    CanonicalMobile mobile ↔ AsciiDigits rules value := by
  obtain ⟨hlength, hfirst, rfl⟩ := indianMobile_eq_ok_iff.mp h
  rw [asciiDigits_iff]
  constructor
  · rintro ⟨digits, hmobile, _, hdigits, _⟩
    have hsame : nationalDigits rules value = digits := by
      simpa [String.ext_iff] using hmobile
    rwa [hsame]
  · intro hdigits
    exact ⟨nationalDigits rules value, rfl, hlength, hdigits, hfirst⟩

theorem nationalDigits_mobile (hrules : DigitRules rules digitValue) {digits : List Char}
    (hlength : digits.length = 10) (hdigits : ∀ c ∈ digits, rules.isDigit c = true) :
    nationalDigits rules ("+91" ++ String.ofList digits) = digits := by
  have hplus : rules.isDigit '+' = false := hrules.ascii '+' (by decide)
  have hnine : rules.isDigit '9' = true := hrules.ascii '9' (by decide)
  have hone : rules.isDigit '1' = true := hrules.ascii '1' (by decide)
  have hfound : ("+91" ++ String.ofList digits).toList.filter rules.isDigit =
      '9' :: '1' :: digits := by
    simp [hplus, hnine, hone, List.filter_eq_self.mpr hdigits]
  unfold nationalDigits
  rw [hfound]
  simp [hlength]

/-- The result is normalised to itself, whatever its digits are. -/
theorem indianMobile_stable (hrules : DigitRules rules digitValue)
    (h : indianMobile rules value = .ok mobile) : indianMobile rules mobile = .ok mobile := by
  obtain ⟨hlength, hfirst, rfl⟩ := indianMobile_eq_ok_iff.mp h
  apply indianMobile_eq_ok_iff.mpr
  rw [nationalDigits_mobile hrules hlength fun c hc => (nationalDigits_subset c hc).2]
  exact ⟨hlength, hfirst, rfl⟩

theorem digit_inj {c d : Char} (hc : c.isDigit = true) (hd : d.isDigit = true)
    (h : c.toNat - '0'.toNat = d.toNat - '0'.toNat) : c = d := by
  simp only [Char.isDigit, Bool.and_eq_true, decide_eq_true_eq, ge_iff_le,
    UInt32.le_iff_toNat_le] at hc hd
  apply Char.ext
  apply UInt32.toNat_inj.mp
  change c.val.toNat - 48 = d.val.toNat - 48 at h
  have hlow := hc.1
  have hlow' := hd.1
  simp only [show '0'.val.toNat = 48 from rfl] at hlow hlow'
  omega

theorem map_digitValue_inj (hrules : DigitRules rules digitValue) {digits others : List Char}
    (hdigits : ∀ c ∈ digits, c.isDigit = true) (hothers : ∀ c ∈ others, c.isDigit = true)
    (h : digits.map digitValue = others.map digitValue) : digits = others := by
  induction digits generalizing others with
  | nil => simpa using h.symm
  | cons c digits ih =>
    cases others with
    | nil => simp at h
    | cons d others =>
      simp only [List.map_cons, List.cons.injEq] at h
      have hc := hdigits c List.mem_cons_self
      have hd := hothers d List.mem_cons_self
      rw [hrules.value c hc, hrules.value d hd] at h
      rw [digit_inj hc hd h.1, ih (fun x hx => hdigits x (List.mem_cons_of_mem c hx))
        (fun x hx => hothers x (List.mem_cons_of_mem d hx)) h.2]

theorem same_number_iff (hrules : DigitRules rules digitValue)
    (h : indianMobile rules value = .ok mobile) (hother : indianMobile rules other = .ok otherMobile)
    (hvalue : AsciiDigits rules value) (hascii : AsciiDigits rules other) :
    nationalNumber rules digitValue value = nationalNumber rules digitValue other ↔
      mobile = otherMobile := by
  obtain ⟨_, _, rfl⟩ := indianMobile_eq_ok_iff.mp h
  obtain ⟨_, _, rfl⟩ := indianMobile_eq_ok_iff.mp hother
  constructor
  · intro hnumber
    rw [map_digitValue_inj hrules (asciiDigits_iff.mp hvalue) (asciiDigits_iff.mp hascii) hnumber]
  · intro hmobile
    have hsame : nationalDigits rules value = nationalDigits rules other := by
      simpa [String.ext_iff] using hmobile
    unfold nationalNumber
    rw [hsame]

/-! ## What the database compares -/

theorem CanonicalMobile.mobileDigits (h : CanonicalMobile mobile) :
    mobileDigits mobile = removePrefix mobile "+" := by
  obtain ⟨digits, rfl, _, hdigits, _⟩ := h
  have hkept : digits.filter Char.isDigit = digits := List.filter_eq_self.mpr hdigits
  simp [VerigenceSecurity.mobileDigits, removePrefix, startsWith, hkept,
    show Char.isDigit '+' = false from rfl, show Char.isDigit '9' = true from rfl,
    show Char.isDigit '1' = true from rfl]

theorem CanonicalMobile.removePrefix_inj (h : CanonicalMobile mobile)
    (hother : CanonicalMobile otherMobile) :
    removePrefix mobile "+" = removePrefix otherMobile "+" ↔ mobile = otherMobile := by
  obtain ⟨digits, rfl, _⟩ := h
  obtain ⟨others, rfl, _⟩ := hother
  simp [removePrefix, startsWith, String.ext_iff]

theorem mobile_entry_iff {u : User} (h : u.primaryMobile = some mobile) (key : List String) :
    (Index.mobile, key) ∈ Row.entries u ↔ key = [VerigenceSecurity.mobileDigits mobile] := by
  simp [Row.entries, h]

theorem mobileRegistered_iff {db : Database} {digits : String}
    (h : db.users.rows.filterMap (·.primaryMobile) = [mobile]) :
    db.mobileRegistered digits = true ↔ VerigenceSecurity.mobileDigits mobile = digits := by
  have hany : db.mobileRegistered digits = true ↔
      ∃ m ∈ db.users.rows.filterMap (·.primaryMobile), VerigenceSecurity.mobileDigits m = digits := by
    simp only [Database.mobileRegistered, List.any_eq_true, decide_eq_true_eq,
      Option.map_eq_some_iff, List.mem_filterMap]
    constructor
    · rintro ⟨u, hu, m, hm, hdigits⟩
      exact ⟨m, ⟨u, hu, hm⟩, hdigits⟩
    · rintro ⟨m, ⟨u, hu, hm⟩, hdigits⟩
      exact ⟨u, hu, m, hm, hdigits⟩
  rw [hany, h]
  simp

end Accepted

/-- Two accepted inputs are normalised as promised exactly when all their digits are ASCII. -/
theorem normalised_iff_asciiDigits {rules : TextRules} {digitValue : Char → Nat}
    (hrules : DigitRules rules digitValue) {value other mobile otherMobile : String}
    (h : indianMobile rules value = .ok mobile)
    (hother : indianMobile rules other = .ok otherMobile) :
    Normalised rules digitValue value other mobile otherMobile ↔
      AsciiDigits rules value ∧ AsciiDigits rules other := by
  constructor
  · intro hn
    exact ⟨(canonicalMobile_iff h).mp hn.canonical.1,
      (canonicalMobile_iff hother).mp hn.canonical.2⟩
  · rintro ⟨hvalue, hascii⟩
    have hmobile := (canonicalMobile_iff h).mpr hvalue
    have hotherMobile := (canonicalMobile_iff hother).mpr hascii
    have hsame := same_number_iff hrules h hother hvalue hascii
    have hdigits : VerigenceSecurity.mobileDigits mobile =
        VerigenceSecurity.mobileDigits otherMobile ↔ mobile = otherMobile := by
      rw [hmobile.mobileDigits, hotherMobile.mobileDigits]
      exact hmobile.removePrefix_inj hotherMobile
    constructor
    case canonical => exact ⟨hmobile, hotherMobile⟩
    case stable => exact ⟨indianMobile_stable hrules h, indianMobile_stable hrules hother⟩
    case agree => exact hsame
    case indexed =>
      intro u v hu hv
      rw [hsame, ← hdigits]
      simp only [mobile_entry_iff hu, mobile_entry_iff hv]
      constructor
      · rintro ⟨key, rfl, hkey⟩
        simpa using hkey
      · intro heq
        exact ⟨_, rfl, by rw [heq]⟩
    case searched =>
      intro db hdb
      rw [hsame, mobileRegistered_iff hdb, hmobile.mobileDigits]
      exact hmobile.removePrefix_inj hotherMobile

/-! ## Digits of other scripts -/

def arabicDigits : TextRules where
  lower := lower
  isDigit c := c.isDigit || (0x660 ≤ c.toNat && c.toNat ≤ 0x669)

def arabicDigitValue (c : Char) : Nat :=
  if c.isDigit then c.toNat - '0'.toNat else c.toNat - 0x660

theorem arabicDigits_rules : DigitRules arabicDigits arabicDigitValue where
  ascii c hc := by
    have hlow : decide (0x660 ≤ c.toNat) = false := decide_eq_false (by omega)
    simp [arabicDigits, hlow]
  value c hc := by
    unfold arabicDigitValue
    rw [if_pos hc]

theorem indianMobile_plain : indianMobile arabicDigits "9876543210" = .ok "+919876543210" := by
  rw [indianMobile_eq_ok_iff]
  simp [nationalDigits, arabicDigits]

/-- A number with one input in each script: one user is stored under `9876543210`, the other under
`919`. -/
theorem indianMobile_arabic :
    ¬ ∀ value other mobile otherMobile : String,
      indianMobile arabicDigits value = .ok mobile →
      indianMobile arabicDigits other = .ok otherMobile →
      Normalised arabicDigits arabicDigitValue value other mobile otherMobile := by
  intro h
  have hother : indianMobile arabicDigits "9٨٧٦٥٤٣٢١٠" = .ok "+919٨٧٦٥٤٣٢١٠" := by
    rw [indianMobile_eq_ok_iff]
    simp [nationalDigits, arabicDigits]
  have hnumber : nationalNumber arabicDigits arabicDigitValue "9876543210" =
      nationalNumber arabicDigits arabicDigitValue "9٨٧٦٥٤٣٢١٠" := by
    simp [nationalNumber, nationalDigits, arabicDigits, arabicDigitValue]
  have hsame := (h _ _ _ _ indianMobile_plain hother).agree.mp hnumber
  exact absurd hsame (by simp)

theorem arabic_normalised :
    Normalised arabicDigits arabicDigitValue "9876543210" "+91 98765-43210" "+919876543210"
      "+919876543210" := by
  have hother : indianMobile arabicDigits "+91 98765-43210" = .ok "+919876543210" := by
    rw [indianMobile_eq_ok_iff]
    simp [nationalDigits, arabicDigits]
  refine (normalised_iff_asciiDigits arabicDigits_rules indianMobile_plain hother).mpr ⟨?_, ?_⟩
  · simp [AsciiDigits, arabicDigits]
  · simp [AsciiDigits, arabicDigits]

end VerigenceSecurity
