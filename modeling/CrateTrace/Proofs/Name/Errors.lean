import CrateTrace.Proofs.Name.Bytewise
import CrateTrace.Proofs.Name.Places

/-!
# Errors point at what they complain about

An error names a part of the text by its first byte, and gives this part. Only at the end of the
text may the part be empty. To say so, no character has to be cut.
-/

namespace CrateTrace.Name

structure PreciseError (text : String) (e : ParseError) : Prop where
  within : e.position ≤ text.utf8ByteSize
  boundary : isBoundary text e.position = true
  fragment : part? text e.position (e.position + e.fragment.utf8ByteSize) = some e.fragment
  nonempty : e.fragment = "" → e.position = text.utf8ByteSize

theorem precise_of_split {text : String} {a m b : List Char} (h : text.toList = a ++ m ++ b)
    (hend : m = [] → b = []) (cause : Cause) :
    PreciseError text ⟨cause, String.ofList m, byteLength a⟩ := by
  have hsize : text.utf8ByteSize = byteLength a + byteLength m + byteLength b := by
    rw [← byteLength_toList, h, byteLength_append, byteLength_append]
  refine ⟨?_, isBoundary_iff.mpr ⟨a, m ++ b, by rw [h, List.append_assoc], rfl⟩, ?_, ?_⟩
  · dsimp only
    omega
  · rw [← byteLength_toList, String.toList_ofList, part?_eq h]
  · intro hempty
    obtain rfl : m = [] := by simpa using hempty
    simp [hsize, hend rfl, byteLength_eq_zero.mpr]

/-! ## Faults of the lexer -/

theorem misfit_length_pos {c : Char} {rest : List Char} {misfit : Misfit}
    (h : front c rest = .error misfit) : 0 < misfit.length := by
  unfold front at h
  split at h
  · split at h
    · cases h
    · cases h
      decide
  case h_2 | h_3 | h_4 | h_5 => cases h
  case h_6 =>
    unfold frontLifetime at h
    split at h
    · cases h
      decide
    · split at h
      · split at h
        · cases h
        · cases h
          exact Nat.add_pos_left (by decide) _
      · cases h
        decide
  case h_7 =>
    unfold frontClosure at h
    dsimp only at h
    split at h
    · cases h
    · split at h
      · cases h
      · cases h
        exact Nat.add_pos_left (by decide) _
  · split at h
    · cases h
    · cases h
      decide

theorem tokensFrom_error {start : Nat} {input : List Char} {e : ParseError}
    (h : tokensFrom start input = .error e) :
    ∃ a m b, input = a ++ m ++ b ∧ m ≠ [] ∧ e.position = start + byteLength a ∧
      e.fragment = String.ofList m := by
  induction start, input using tokensFrom.induct generalizing e with
  | case1 start =>
    rw [tokensFrom] at h
    cases h
  | case2 start c rest hblank ih =>
    rw [tokensFrom, if_pos hblank] at h
    obtain ⟨a, m, b, rfl, hm, hposition, hfragment⟩ := ih h
    refine ⟨c :: a, m, b, rfl, hm, ?_, hfragment⟩
    rw [hposition, byteLength_cons, utf8Size_blank hblank, Nat.add_assoc]
  | case3 start c rest hblank misfit hfront =>
    rw [tokensFrom, if_neg hblank, hfront] at h
    cases h
    have hpos := misfit_length_pos hfront
    refine ⟨[], (c :: rest).take misfit.length, (c :: rest).drop misfit.length, ?_, ?_, rfl, rfl⟩
    · rw [List.nil_append, List.take_append_drop]
    · simp
      omega
  | case4 start c rest hblank l more hfront e' hrest ih =>
    rw [tokensFrom, if_neg hblank, hfront] at h
    simp only [hrest] at h
    cases h
    obtain ⟨a, m, b, hinput, hm, hposition, hfragment⟩ := ih hrest
    refine ⟨(c :: rest.take more) ++ a, m, b, ?_, hm, ?_, hfragment⟩
    · rw [List.append_assoc, List.append_assoc, ← List.append_assoc a, ← hinput]
      simp
    · rw [hposition, byteLength_append, front_width hfront]
      omega
  | case5 start c rest hblank l more hfront ts' hrest ih =>
    rw [tokensFrom, if_neg hblank, hfront] at h
    simp [hrest] at h

/-! ## Faults of the parser -/

/-- The text may be divided at this byte. -/
def Divides (input : List Char) (pos : Nat) : Prop := ∃ a b, input = a ++ b ∧ byteLength a = pos

theorem divides_two {input : List Char} {start stop : Nat} (hstart : Divides input start)
    (hstop : Divides input stop) (hle : start ≤ stop) :
    ∃ a m b, input = a ++ m ++ b ∧ start = byteLength a ∧ stop = byteLength a + byteLength m := by
  obtain ⟨a, behind, hinput, rfl⟩ := hstart
  obtain ⟨front, b, rfl, rfl⟩ := hstop
  obtain ⟨m, rfl, rfl⟩ := prefix_of_byteLength_le hinput hle
  exact ⟨a, m, b, rfl, rfl, byteLength_append a m⟩

theorem slice_front (m b : List Char) : slice 0 (byteLength m) (m ++ b) = m := by
  induction m with
  | nil => cases b <;> rfl
  | cons c m ih =>
    have hpos := c.utf8Size_pos
    rw [byteLength_cons, List.cons_append, slice, if_neg (by omega), if_pos rfl,
      Nat.add_sub_cancel_left, ih]

theorem slice_eq (a m b : List Char) :
    slice (byteLength a) (byteLength a + byteLength m) (a ++ m ++ b) = m := by
  induction a with
  | nil =>
    rw [byteLength_eq_zero.mpr rfl, Nat.zero_add]
    exact slice_front m b
  | cons c a ih =>
    have hpos := c.utf8Size_pos
    have hstop : c.utf8Size + byteLength a + byteLength m - c.utf8Size =
      byteLength a + byteLength m := by omega
    rw [byteLength_cons, List.cons_append, List.cons_append, slice, if_neg (by omega),
      if_neg (by omega), Nat.add_sub_cancel_left, hstop, ih]

/-- The tokens of a text, told by their places only. -/
structure Placed (input : List Char) (tokens : List Token) : Prop where
  starts : ∀ t ∈ tokens, Divides input t.start
  stops : ∀ t ∈ tokens, Divides input t.stop
  inside : ∀ t ∈ tokens, t.start < t.stop ∧ t.stop ≤ byteLength input
  ordered : tokens.Pairwise (·.stop ≤ ·.start)

theorem placed_of_tokens {input : List Char} {ts : List Token} (h : tokens input = .ok ts) :
    Placed input ts := by
  have htiled := Tiled.of_tokensFrom h
  have htext := htiled.exists_text
  refine ⟨fun t ht => ?_, fun t ht => ?_, fun t ht => ?_, htiled.pairwise⟩
  · obtain ⟨a, text, b, rfl, hstart, -⟩ := htext t ht
    exact ⟨a, text ++ b, by simp, by omega⟩
  · obtain ⟨a, text, b, rfl, hstart, hstop, -⟩ := htext t ht
    exact ⟨a ++ text, b, rfl, by rw [byteLength_append]; omega⟩
  · obtain ⟨a, text, b, rfl, hstart, hstop, -⟩ := htext t ht
    refine ⟨(htiled.start_le t ht).2, ?_⟩
    rw [byteLength_append, byteLength_append]
    omega

/-- A place of the lexemes is a range of bytes that may be cut out, empty at the end only. -/
structure GoodRange (input : List Char) (start stop : Nat) : Prop where
  divides : Divides input start ∧ Divides input stop
  ordered : start ≤ stop
  nonempty : start = stop → start = byteLength input

theorem divides_end (input : List Char) : Divides input (byteLength input) :=
  ⟨input, [], by simp, rfl⟩

theorem tokenLeft?_eq {ts : List Token} {left : Nat} (hpos : 0 < left) (hle : left ≤ ts.length) :
    ∃ t ∈ ts, ts[ts.length - left]? = some t ∧ tokenLeft? ts left = some t := by
  have hlt : ts.length - left < ts.length := by omega
  refine ⟨ts[ts.length - left], List.getElem_mem hlt, List.getElem?_eq_getElem hlt, ?_⟩
  rw [tokenLeft?, if_pos hle, List.getElem?_eq_getElem hlt]

theorem Placed.goodRange {input : List Char} {ts : List Token} (h : Placed input ts)
    {first last : Token} (hfirst : first ∈ ts) (hlast : last ∈ ts)
    (hlt : first.start < last.stop) : GoodRange input first.start last.stop :=
  ⟨⟨h.starts first hfirst, h.stops last hlast⟩, by omega, by omega⟩

theorem Placed.start_lt_stop {input : List Char} {ts : List Token} (h : Placed input ts)
    {i j : Nat} {first last : Token} (hle : i ≤ j) (hfirst : ts[i]? = some first)
    (hlast : ts[j]? = some last) : first.start < last.stop := by
  obtain ⟨hi, rfl⟩ := List.getElem?_eq_some_iff.mp hfirst
  obtain ⟨hj, rfl⟩ := List.getElem?_eq_some_iff.mp hlast
  have hfirst := (h.inside _ (List.getElem_mem hi)).1
  have hlast := (h.inside _ (List.getElem_mem hj)).1
  obtain rfl | hlt := Nat.eq_or_lt_of_le hle
  · exact hfirst
  · have hordered := List.pairwise_iff_getElem.mp h.ordered i j hi hj hlt
    omega

theorem range_eq {text : String} {ts : List Token} (h : Placed text.toList ts) {place : Place}
    (hplace : place.Within ts.length) :
    ∃ start stop, place.range text.toList ts = (start, stop) ∧
      place.range? text ts = some (start, stop) ∧ GoodRange text.toList start stop := by
  have hend := divides_end text.toList
  have hsize := byteLength_toList text
  cases place with
  | next left =>
    by_cases hleft : left = 0
    · subst hleft
      refine ⟨byteLength text.toList, byteLength text.toList, ?_, ?_, ⟨hend, hend⟩, Nat.le_refl _,
        fun _ => rfl⟩
      · rw [Place.range, List.getElem?_eq_none (by omega)]
      · rw [Place.range?, if_pos rfl, hsize]
    · obtain ⟨t, ht, hindex, htoken⟩ := tokenLeft?_eq (Nat.pos_of_ne_zero hleft) hplace
      refine ⟨t.start, t.stop, ?_, ?_, h.goodRange ht ht (h.inside t ht).1⟩
      · rw [Place.range, hindex]
      · rw [Place.range?, if_neg hleft, htoken]
        rfl
  | onward left =>
    obtain ⟨t, ht, hindex, htoken⟩ := tokenLeft?_eq hplace.1 hplace.2
    obtain ⟨hlt, hle⟩ := h.inside t ht
    refine ⟨t.start, byteLength text.toList, ?_, ?_, ⟨h.starts t ht, hend⟩, by omega, by omega⟩
    · rw [Place.range, hindex]
    · rw [Place.range?, htoken, hsize]
      rfl
  | between left upTo =>
    obtain ⟨hupTo, hleft⟩ := hplace
    obtain ⟨first, hfirst, hindex, htoken⟩ := tokenLeft?_eq (by omega) hleft
    have hlast' : upTo + 1 ≤ ts.length := by omega
    obtain ⟨last, hlast, hindex', htoken'⟩ := tokenLeft?_eq (Nat.succ_pos upTo) hlast'
    have hlt := h.start_lt_stop (by omega) hindex hindex'
    refine ⟨first.start, last.stop, ?_, ?_, h.goodRange hfirst hlast hlt⟩
    · rw [Place.range, hindex, Nat.sub_sub, hindex']
    · rw [Place.range?, htoken, htoken']
      rfl

theorem locate_eq {text : String} {ts : List Token} (h : Placed text.toList ts) {f : Fault}
    (hplace : f.place.Within ts.length) :
    f.locate? text ts = some (f.locate text.toList ts) ∧
      PreciseError text (f.locate text.toList ts) := by
  obtain ⟨start, stop, hrange, hrange', hgood⟩ := range_eq h hplace
  obtain ⟨a, m, b, hinput, rfl, rfl⟩ := divides_two hgood.divides.1 hgood.divides.2 hgood.ordered
  have herror : f.locate text.toList ts = ⟨f.cause, String.ofList m, byteLength a⟩ := by
    rw [Fault.locate, hrange]
    dsimp only
    rw [hinput, slice_eq]
  have hempty : m = [] → b = [] := by
    rintro rfl
    have hlast := hgood.nonempty rfl
    rw [hinput, byteLength_append, byteLength_append] at hlast
    exact byteLength_eq_zero.mp (by omega)
  rw [herror, Fault.locate?, hrange', Option.bind_some]
  dsimp only
  rw [errorAt?_eq hinput]
  exact ⟨rfl, precise_of_split hinput hempty f.cause⟩

/-! ## Names -/

theorem precise_of_tokens {name : String} {e : ParseError} (h : tokens name.toList = .error e) :
    PreciseError name e := by
  obtain ⟨cause, fragment, position⟩ := e
  obtain ⟨a, m, b, hinput, hm, hposition, hfragment⟩ := tokensFrom_error h
  obtain rfl : position = byteLength a := by simpa using hposition
  obtain rfl : fragment = String.ofList m := hfragment
  exact precise_of_split hinput (fun hnil => absurd hnil hm) cause

/-- Reading a name by its bytes never fails to take a part of it, and gives what `parse` gives. An
error names a part of the text, which is empty at the end of the text only. -/
theorem parse_errors_are_precise (name : String) :
    parse? name = some (parse name) ∧ ∀ e, parse name = .error e → PreciseError name e := by
  have hbytes : tokensAt? name 0 = some (tokens name.toList) :=
    tokensAt?_eq (a := []) rfl
  unfold parse? parse
  rw [hbytes, Option.bind_some]
  cases htokens : tokens name.toList with
  | error e =>
    refine ⟨rfl, fun e' he' => ?_⟩
    obtain rfl := Except.error.inj he'
    exact precise_of_tokens htokens
  | ok ts =>
    dsimp only
    cases hd : declaration (ts.map (·.lexeme)) with
    | ok d => exact ⟨rfl, fun e he => by cases he⟩
    | error f =>
      have hplace := declaration_within hd
      rw [List.length_map] at hplace
      obtain ⟨hlocate, hprecise⟩ := locate_eq (placed_of_tokens htokens) hplace
      dsimp only
      refine ⟨by rw [hlocate]; rfl, fun e he => ?_⟩
      obtain rfl := Except.error.inj he
      exact hprecise

/-- The quote and the wide character behind it are refused as one. -/
theorem parse_errors_are_precise_wide :
    parse? "f<'é" = some (.error ⟨.malformedLifetime, "'é", 2⟩) ∧
      PreciseError "f<'é" ⟨.malformedLifetime, "'é", 2⟩ := by
  have hparse : parse "f<'é" = .error ⟨.malformedLifetime, "'é", 2⟩ := by decide +kernel
  obtain ⟨hbytes, hprecise⟩ := parse_errors_are_precise "f<'é"
  exact ⟨by rw [hbytes, hparse], hprecise _ hparse⟩

end CrateTrace.Name
