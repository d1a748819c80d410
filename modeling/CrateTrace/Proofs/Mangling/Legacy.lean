import CrateTrace.Mangling.Standard
import CrateTrace.Name.Key
import CrateTrace.Proofs.Name.Boundaries

/-!
# Labels in the older mangling

The label of a path of identifiers is read as this path, whatever the hash behind it is.
-/

namespace CrateTrace.Mangling

open Name

/-! ## Labels -/

def isHexDigit (c : Char) : Bool :=
  c.isDigit || ('a' ≤ c && c ≤ 'f') || ('A' ≤ c && c ≤ 'F')

/-- Sixteen hex digits. -/
structure IsBuildHash (hash : String) : Prop where
  length : hash.length = 16
  digits : hash.toList.all isHexDigit = true

instance (hash : String) : Decidable (IsBuildHash hash) :=
  decidable_of_iff (hash.length = 16 ∧ hash.toList.all isHexDigit = true)
    ⟨fun ⟨length, digits⟩ => ⟨length, digits⟩, fun h => ⟨h.length, h.digits⟩⟩

/-- The label of a path in the older mangling. -/
def legacyLabel (mark : String) (names : List String) (hash : String) : String :=
  mark ++ String.join (names.map fun name => toString name.length ++ name) ++ "17h" ++ hash ++ "E"

theorem isWordStart_of_isAlpha {c : Char} (h : c.isUpper = true ∨ c.isLower = true) :
    isWordStart c = true := by
  have halpha : c.isAlpha = true := Bool.or_eq_true_iff.2 h
  exact Bool.or_eq_true_iff.2 (.inl halpha)

theorem isWordPart_of_isHexDigit {c : Char} (h : isHexDigit c = true) : isWordPart c = true := by
  unfold isHexDigit at h
  simp only [Bool.or_eq_true, Bool.and_eq_true, decide_eq_true_eq] at h
  rcases h with (hdigit | ⟨hlow, hhigh⟩) | ⟨hlow, hhigh⟩
  · exact isWordPart_of_isDigit hdigit
  · have hlast : c ≤ 'z' := Char.le_trans hhigh (by decide)
    have hlower : c.isLower = true :=
      Bool.and_eq_true_iff.2 ⟨decide_eq_true hlow, decide_eq_true hlast⟩
    exact isWordPart_of_isWordStart (isWordStart_of_isAlpha (.inr hlower))
  · have hlast : c ≤ 'Z' := Char.le_trans hhigh (by decide)
    have hupper : c.isUpper = true := decide_eq_true ⟨hlow, hlast⟩
    exact isWordPart_of_isWordStart (isWordStart_of_isAlpha (.inl hupper))

theorem not_isDigit_of_isWordStart {c : Char} (h : isWordStart c = true) : c.isDigit = false := by
  rw [Bool.eq_false_iff]
  intro hdigit
  have hlast : c.val ≤ '9'.val := of_decide_eq_true (Bool.and_eq_true_iff.1 hdigit).2
  obtain halpha | hunderscore := Bool.or_eq_true_iff.1 h
  · obtain hupper | hlower := Bool.or_eq_true_iff.1 halpha
    · have hfirst : 'A'.val ≤ c.val := (of_decide_eq_true hupper).1
      exact absurd (UInt32.le_trans hfirst hlast) (by decide)
    · have hfirst : 'a'.val ≤ c.val := of_decide_eq_true (Bool.and_eq_true_iff.1 hlower).1
      exact absurd (UInt32.le_trans hfirst hlast) (by decide)
  · rw [beq_iff_eq.1 hunderscore] at hdigit
    cases hdigit

theorem isDigit_of_mem_toDigits {n : Nat} : ∀ c ∈ Nat.toDigits 10 n, c.isDigit = true :=
  fun _ hc => Nat.isDigit_of_mem_toDigits (by decide) (by decide) hc

namespace Legacy

/-! ## Elements -/

/-- Elements, each behind its length. -/
def encoded (elements : List (List Char)) : List Char :=
  elements.flatMap fun element => Nat.toDigits 10 element.length ++ element

/-- An element that a length can stand before, and that has no escapes. -/
structure IsPlain (element : List Char) : Prop where
  start : ∃ c more, element = c :: more ∧ isWordStart c = true
  word : ∀ c ∈ element, isWordPart c = true

theorem isPlain_of_isIdentifier {name : String} (h : isIdentifier name = true) :
    IsPlain name.toList where
  start := by
    unfold isIdentifier at h
    split at h
    · cases h
    · next c more hname => exact ⟨c, more, hname, (Bool.and_eq_true_iff.1 h).1⟩
  word := isWordPart_of_isIdentifier h

theorem elements_encode {element : List Char} (h : IsPlain element) (rest : List Char) :
    elements (Nat.toDigits 10 element.length ++ element ++ rest) =
      (elements rest).map fun (more, suffix) => (element :: more, suffix) := by
  have hdigits := isDigit_of_mem_toDigits (n := element.length)
  have hvalue : Decimal.decimalValue (Nat.toDigits 10 element.length) = element.length :=
    Nat.ofDigitChars_ten_toDigits
  obtain ⟨first, more, hstart, hfirst⟩ := h.start
  have hstop := not_isDigit_of_isWordStart hfirst
  cases hall : Nat.toDigits 10 element.length with
  | nil => exact absurd hall Nat.toDigits_ne_nil
  | cons c digits =>
    rw [hall] at hdigits hvalue
    rw [List.forall_mem_cons] at hdigits
    obtain ⟨hc, hmore⟩ := hdigits
    have hE : c ≠ 'E' := by
      rintro rfl
      cases hc
    -- The digits of the length end where the element starts.
    have htake : (digits ++ (element ++ rest)).takeWhile Char.isDigit = digits := by
      rw [List.takeWhile_append_of_pos hmore, hstart]
      simp [hstop]
    have hdrop : (digits ++ (element ++ rest)).dropWhile Char.isDigit = element ++ rest := by
      rw [List.dropWhile_append_of_pos hmore, hstart]
      simp [hstop]
    rw [List.append_assoc, List.cons_append, elements]
    · simp only [hc, htake, hdrop, hvalue, if_true]
      rw [if_pos (by simp), List.drop_left, List.take_left]
    · exact hE

theorem elements_encoded {all : List (List Char)} (h : ∀ e ∈ all, IsPlain e)
    (suffix : List Char) : elements (encoded all ++ 'E' :: suffix) = some (all, suffix) := by
  induction all with
  | nil =>
    unfold encoded
    rw [List.flatMap_nil, List.nil_append, elements]
  | cons element all ih =>
    rw [List.forall_mem_cons] at h
    have hfront : encoded (element :: all) ++ 'E' :: suffix =
        Nat.toDigits 10 element.length ++ element ++ (encoded all ++ 'E' :: suffix) := by
      simp [encoded]
    rw [hfront, elements_encode h.1, ih h.2]
    rfl

theorem isWordPart_of_mem_encoded {all : List (List Char)} (h : ∀ e ∈ all, IsPlain e) :
    ∀ c ∈ encoded all, isWordPart c = true := by
  unfold encoded
  intro c hc
  obtain ⟨element, helement, hc⟩ := List.mem_flatMap.1 hc
  obtain hdigit | hword := List.mem_append.1 hc
  · exact isWordPart_of_isDigit (isDigit_of_mem_toDigits c hdigit)
  · exact (h element helement).word c hword

/-! ## Names -/

theorem elementText_eq {element : List Char} (h : IsPlain element) :
    elementText element = element := by
  have hplain : ∀ c ∈ element, c ≠ '.' ∧ c ≠ '$' := by
    intro c hc
    have hword := h.word c hc
    constructor <;> rintro rfl <;> cases hword
  have hunescape : unescape element = element := by
    clear h
    induction element with
    | nil => rw [unescape]
    | cons c rest ih =>
      rw [List.forall_mem_cons] at hplain
      obtain ⟨⟨hdot, hdollar⟩, hrest⟩ := hplain
      rw [unescape, ih hrest]
      · intro _ hc
        exact absurd hc hdot
      · exact hdollar
  unfold elementText
  split
  · simp at hplain
  · exact hunescape

theorem withoutHash_append {all : List (List Char)} {digits : List Char}
    (h : digits.all isHexDigit = true) : withoutHash (all ++ ['h' :: digits]) = all := by
  have hhash : isHash ('h' :: digits) = true := h
  unfold withoutHash
  simp [hhash]

theorem name?_encoded {all : List (List Char)} {digits : List Char}
    (h : ∀ e ∈ all ++ ['h' :: digits], IsPlain e) (hdigits : digits.all isHexDigit = true)
    (hascii : ∀ c ∈ encoded (all ++ ['h' :: digits]) ++ ['E'], c.utf8Size = 1) :
    name? (encoded (all ++ ['h' :: digits]) ++ ['E']) = some ([':', ':'].intercalate all, []) := by
  have hnarrow : (encoded (all ++ ['h' :: digits]) ++ ['E']).all (·.toNat < 128) = true := by
    rw [List.all_eq_true]
    intro c hc
    exact decide_eq_true (Nat.lt_succ_of_le (utf8Size_eq_one.1 (hascii c hc)))
  have htexts : all.map elementText = all := by
    rw [List.map_congr_left fun e he => elementText_eq (h e (List.mem_append_left _ he)),
      List.map_id']
  unfold name?
  rw [if_pos hnarrow, elements_encoded h, Option.map_some]
  dsimp only
  rw [withoutHash_append hdigits, htexts]

end Legacy

/-! ## Symbols -/

theorem isPrefixOf_eq_false {separator input : List Char} {c : Char} (h : c ∈ separator)
    (hnot : c ∉ input) : separator.isPrefixOf input = false := by
  rw [Bool.eq_false_iff]
  intro hprefix
  exact hnot ((List.isPrefixOf_iff_prefix.1 hprefix).subset h)

theorem splitAt?_eq_none {separator input : List Char} {c : Char} (h : c ∈ separator)
    (hnot : c ∉ input) : Text.splitAt? separator input = none := by
  induction input with
  | nil =>
    unfold Text.splitAt?
    simp [isPrefixOf_eq_false h hnot]
  | cons first rest ih =>
    have hfront := isPrefixOf_eq_false h hnot
    rw [List.mem_cons, not_or] at hnot
    unfold Text.splitAt?
    simp [hfront, ih hnot.2]

section

variable {mark hash : String} {names : List String}

/-- The elements of a label, the last of which is the hash. -/
def labelElements (names : List String) (hash : String) : List (List Char) :=
  names.map String.toList ++ ['h' :: hash.toList]

theorem isPlain_labelElements (hnames : ∀ n ∈ names, isIdentifier n = true)
    (hhash : IsBuildHash hash) : ∀ e ∈ labelElements names hash, Legacy.IsPlain e := by
  unfold labelElements
  rw [List.forall_mem_append, List.forall_mem_singleton, List.forall_mem_map]
  refine ⟨fun n hn => Legacy.isPlain_of_isIdentifier (hnames n hn), ⟨'h', hash.toList, rfl, rfl⟩, ?_⟩
  rw [List.forall_mem_cons]
  exact ⟨rfl, fun c hc => isWordPart_of_isHexDigit (List.all_eq_true.1 hhash.digits c hc)⟩

theorem toList_legacyLabel (hhash : IsBuildHash hash) :
    (legacyLabel mark names hash).toList =
      mark.toList ++ (Legacy.encoded (labelElements names hash) ++ ['E']) := by
  have hlength : ('h' :: hash.toList).length = 17 := by
    rw [List.length_cons, String.length_toList, hhash.length]
  have hseventeen : Nat.toDigits 10 17 = ['1', '7'] := rfl
  unfold legacyLabel Legacy.encoded labelElements
  simp [List.flatMap_map, hlength, hseventeen, String.length_toList]

theorem isWordPart_of_mem_legacyLabel (hmark : mark ∈ ["_ZN", "__ZN"])
    (hnames : ∀ n ∈ names, isIdentifier n = true) (hhash : IsBuildHash hash) :
    ∀ c ∈ (legacyLabel mark names hash).toList, isWordPart c = true := by
  have hfront : mark.toList.all isWordPart = true := by
    simp only [List.mem_cons, List.not_mem_nil, or_false] at hmark
    obtain rfl | rfl := hmark <;> rfl
  rw [toList_legacyLabel hhash, List.forall_mem_append, List.forall_mem_append,
    List.forall_mem_singleton]
  exact ⟨List.all_eq_true.1 hfront,
    Legacy.isWordPart_of_mem_encoded (isPlain_labelElements hnames hhash), rfl⟩

theorem behind_mark (hmark : mark ∈ ["_ZN", "__ZN"]) (body : List Char) :
    marks.any (fun m => m.toList.isPrefixOf (mark.toList ++ body)) = true ∧
      behind? (mark.toList ++ body) ["_ZN", "__ZN"] = some body := by
  simp only [List.mem_cons, List.not_mem_nil, or_false] at hmark
  obtain rfl | rfl := hmark <;> exact ⟨rfl, rfl⟩

theorem ofList_intercalate (names : List String) :
    String.ofList ([':', ':'].intercalate (names.map String.toList)) = joinPath names := by
  rw [← String.toList_inj, String.toList_ofList]
  simp [joinPath]

theorem hasMark_legacyLabel (hmark : mark ∈ ["_ZN", "__ZN"]) (hhash : IsBuildHash hash) :
    hasMark (legacyLabel mark names hash) = true := by
  unfold hasMark
  rw [toList_legacyLabel hhash]
  exact (behind_mark hmark _).1

theorem standard_legacyLabel (hmark : mark ∈ ["_ZN", "__ZN"])
    (hnames : ∀ n ∈ names, isIdentifier n = true) (hhash : IsBuildHash hash) :
    standard (legacyLabel mark names hash) = some (joinPath names) := by
  have hword := isWordPart_of_mem_legacyLabel hmark hnames hhash
  have hkept : withoutRenaming (legacyLabel mark names hash).toList =
      (legacyLabel mark names hash).toList := by
    have hdot : '.' ∉ (legacyLabel mark names hash).toList := fun h => by cases hword '.' h
    unfold withoutRenaming
    rw [splitAt?_eq_none (c := '.') (by decide) hdot]
  have htext : (legacyLabel mark names hash).toList =
      mark.toList ++ (Legacy.encoded (labelElements names hash) ++ ['E']) :=
    toList_legacyLabel hhash
  have hbehind := (behind_mark hmark (Legacy.encoded (labelElements names hash) ++ ['E'])).2
  have hname := Legacy.name?_encoded (isPlain_labelElements hnames hhash) hhash.digits fun c hc =>
    utf8Size_wordPart (hword c (htext ▸ List.mem_append_right _ hc))
  unfold standard nameOf?
  rw [hkept, htext, hbehind, Option.bind_some]
  unfold labelElements
  rw [hname]
  simp [isSuffix, ofList_intercalate]

end

/-! ## Demanglers -/

/-- What is relied on of a demangler: of a label in the older mangling it joins the elements, and
leaves out the hash behind them. -/
def JoinsElements (demangler : Demangler) : Prop :=
  ∀ mark ∈ ["_ZN", "__ZN"], ∀ names hash, (∀ n ∈ names, isIdentifier n = true) → IsBuildHash hash →
    demangler (legacyLabel mark names hash) = some (joinPath names)

theorem joinsElements_standard : JoinsElements standard :=
  fun _ hmark _ _ hnames hhash => standard_legacyLabel hmark hnames hhash

/-- A label is read as its path, whatever its hash. -/
theorem demangle_legacyLabel {demangler : Demangler} (joins : JoinsElements demangler)
    {mark hash : String} {names : List String} (hmark : mark ∈ ["_ZN", "__ZN"])
    (hnames : ∀ n ∈ names, isIdentifier n = true) (hhash : IsBuildHash hash) :
    demangle demangler (legacyLabel mark names hash) = .ok (joinPath names) := by
  unfold demangle
  rw [if_pos (hasMark_legacyLabel hmark hhash), joins mark hmark names hash hnames hhash]

end CrateTrace.Mangling
