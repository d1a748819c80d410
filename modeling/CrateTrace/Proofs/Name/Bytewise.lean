import CrateTrace.Proofs.Name.Boundaries

/-!
# The reader of bytes cuts as the reader of characters

At an offset that the characters before it take, both find the same lexeme or the same fault. So no
part that the reader of bytes takes is ever cut inside a character.
-/

namespace CrateTrace.Name

/-- The error about the first characters of an input that starts at byte `start`. -/
def Misfit.toError (start : Nat) (input : List Char) (misfit : Misfit) : ParseError :=
  ⟨misfit.cause, String.ofList (input.take misfit.length), start⟩

theorem refuse?_eq {α : Type} {text : String} {a rest : List Char} {stop : Nat}
    (h : text.toList = a ++ rest) (misfit : Misfit)
    (hstop : stop = byteLength a + byteLength (rest.take misfit.length)) :
    (refuse? text (byteLength a) stop misfit.cause : Option (Except ParseError α)) =
      some (.error (misfit.toError (byteLength a) rest)) := by
  have hsplit : text.toList = a ++ rest.take misfit.length ++ rest.drop misfit.length := by
    rw [h, List.append_assoc, List.take_append_drop]
  rw [refuse?, hstop, errorAt?_eq hsplit]
  rfl

/-! ## One lexeme -/

theorem firstWidth?_ofList (c : Char) (rest : List Char) :
    firstWidth? (String.ofList (c :: rest)) = some c.utf8Size := by
  rw [firstWidth?, String.toList_ofList]
  rfl

theorem utf8Size_of_isLifetimeName {c : Char} (h : isLifetimeName c = true) : c.utf8Size = 1 :=
  utf8Size_wordPart (isWordPart_of_isLifetimeName h)

theorem any_head?_iff {p : Char → Bool} {rest : List Char} :
    rest.head?.any p = true ↔ rest.takeWhile p ≠ [] := by
  cases rest with
  | nil => simp
  | cons c rest => by_cases hc : p c = true <;> simp [hc]

theorem takeWhile_take_length (p : Char → Bool) (rest : List Char) :
    rest.take (rest.takeWhile p).length = rest.takeWhile p := by
  have hsplit := List.takeWhile_append_dropWhile (p := p) (l := rest)
  exact (List.prefix_iff_eq_take.mp ⟨_, hsplit⟩).symm

theorem byteLength_takeWhile {p : Char → Bool} (hp : ∀ c, p c = true → c.utf8Size = 1)
    (rest : List Char) : byteLength (rest.takeWhile p) = (rest.takeWhile p).length :=
  byteLength_ascii fun c hc => hp c (List.mem_takeWhile_imp hc)

/-- A word part behind a lifetime is an error that goes on to the end of the word. -/
theorem namedLifetimeAt?_eq {text : String} {a rest : List Char} {n : Char}
    (hn : isLifetimeName n = true) (h : text.toList = a ++ '\'' :: n :: rest) :
    namedLifetimeAt? text (byteLength a) n =
      some ((frontLifetime (n :: rest)).mapError
        (Misfit.toError (byteLength a) ('\'' :: n :: rest))) := by
  have hbehind : text.toList = (a ++ ['\'', n]) ++ rest := by simp [h]
  have hwidth : byteLength (a ++ ['\'', n]) = byteLength a + 2 := by
    rw [byteLength_append, byteLength_cons, byteLength_cons, utf8Size_of_isLifetimeName hn]
    rfl
  have hany := byteAt?_any (fun _ => utf8Size_wordPart) hbehind
  have hend := runEnd_eq (fun _ => utf8Size_wordPart) hbehind
  rw [hwidth] at hany hend
  rw [namedLifetimeAt?, hany, hend, frontLifetime, if_pos hn]
  generalize hexcess : rest.takeWhile isWordPart = excess
  cases excess with
  | nil =>
    rw [if_neg fun hword => any_head?_iff.mp hword hexcess]
    rfl
  | cons c excess =>
    rw [if_pos (any_head?_iff.mpr (by simp [hexcess]))]
    refine refuse?_eq h ⟨.longLifetime, 2 + (c :: excess).length⟩ ?_
    have hexcesswidth := byteLength_takeWhile (fun _ => utf8Size_wordPart) rest
    have htake : rest.take (c :: excess).length = c :: excess := by
      rw [← hexcess, takeWhile_take_length]
    rw [hexcess] at hexcesswidth
    rw [Nat.add_comm 2, List.take_succ_cons, List.take_succ_cons, htake, byteLength_cons,
      byteLength_cons, hexcesswidth, utf8Size_of_isLifetimeName hn]
    have hquote : Char.utf8Size '\'' = 1 := rfl
    omega

theorem lifetimeAt?_eq {text : String} {a rest : List Char} (h : text.toList = a ++ '\'' :: rest) :
    lifetimeAt? text (byteLength a) =
      some ((frontLifetime rest).mapError (Misfit.toError (byteLength a) ('\'' :: rest))) := by
  have hname : text.toList = (a ++ ['\'']) ++ rest := by rw [h, List.append_cons]
  have hwidth : byteLength (a ++ ['\'']) = byteLength a + 1 := by rw [byteLength_append]; rfl
  have hfilter := byteAt?_filter (fun _ => utf8Size_of_isLifetimeName) hname
  have hpart := partFrom?_eq hname
  rw [hwidth] at hfilter hpart
  rw [lifetimeAt?, hfilter, hpart]
  cases rest with
  | nil => exact refuse?_eq h ⟨.malformedLifetime, 1⟩ rfl
  | cons n rest =>
    by_cases hn : isLifetimeName n = true
    · rw [List.head?_cons, Option.filter_some_pos hn]
      exact namedLifetimeAt?_eq hn h
    · rw [List.head?_cons, Option.filter_some_neg (by simpa using hn), Option.bind_some,
        firstWidth?_ofList, frontLifetime, if_neg hn]
      exact refuse?_eq h ⟨.malformedLifetime, 2⟩ (Nat.add_assoc _ _ _)

theorem wordAt?_eq {text : String} {a rest : List Char} {c : Char} (hc : isWordStart c = true)
    (h : text.toList = a ++ c :: rest) :
    wordAt? text (byteLength a) =
      some (.ok (.ofWord (String.ofList (c :: rest.takeWhile isWordPart)),
        (rest.takeWhile isWordPart).length)) := by
  have hend := runEnd_eq (fun _ => utf8Size_wordPart) h
  have hwidth := byteLength_takeWhile (fun _ => utf8Size_wordPart) (c :: rest)
  rw [List.takeWhile_cons_of_pos (isWordPart_of_isWordStart hc)] at hend hwidth
  have hsplit : text.toList =
      a ++ (c :: rest.takeWhile isWordPart) ++ rest.dropWhile isWordPart := by
    rw [h, List.append_assoc, List.cons_append, List.takeWhile_append_dropWhile]
  rw [wordAt?, hend, ← hwidth, part?_eq hsplit, hwidth, List.length_cons]
  simp

theorem unexpectedAt?_eq {text : String} {a rest : List Char} {c : Char}
    (h : text.toList = a ++ c :: rest) :
    unexpectedAt? text (byteLength a) =
      some (.error (Misfit.toError (byteLength a) (c :: rest) ⟨.unexpectedCharacter, 1⟩)) := by
  rw [unexpectedAt?, partFrom?_eq h, Option.bind_some, firstWidth?_ofList]
  exact refuse?_eq h ⟨.unexpectedCharacter, 1⟩ rfl

theorem utf8Size_of_isDigit {c : Char} (h : c.isDigit = true) : c.utf8Size = 1 :=
  utf8Size_wordPart (isWordPart_of_isDigit h)

theorem closureNumber?_eq (tail : List Char) :
    closureNumber? (String.ofList tail) =
      some (if tail.takeWhile Char.isDigit ≠ [] ∧
          tail[(tail.takeWhile Char.isDigit).length]? = some '\x7d' then
        some (String.ofList (tail.takeWhile Char.isDigit), (tail.takeWhile Char.isDigit).length)
      else none) := by
  have htext : (String.ofList tail).toList = [] ++ tail := String.toList_ofList
  have hsplit := List.takeWhile_append_dropWhile (p := Char.isDigit) (l := tail)
  have hend := runEnd_eq (fun _ => utf8Size_of_isDigit) htext
  have hwidth := byteLength_takeWhile (fun _ => utf8Size_of_isDigit) tail
  generalize tail.takeWhile Char.isDigit = digits at hsplit hend hwidth ⊢
  generalize tail.dropWhile Char.isDigit = behind at hsplit
  have hbrace : byteAt? (String.ofList tail) digits.length = some '\x7d' ↔
      tail[digits.length]? = some '\x7d' := by
    rw [← hwidth, byteAt?_eq_some_iff rfl (htext.trans hsplit.symm), hwidth, ← hsplit,
      List.getElem?_append_right (Nat.le_refl _), Nat.sub_self, List.head?_eq_getElem?]
  have hpart : part? (String.ofList tail) 0 digits.length = some (String.ofList digits) := by
    have hparts : (String.ofList tail).toList = [] ++ digits ++ behind := htext.trans hsplit.symm
    have hpart := part?_eq hparts
    rwa [hwidth, byteLength_eq_zero.mpr rfl, Nat.zero_add] at hpart
  have hend' : runEnd Char.isDigit (String.ofList tail) 0 = digits.length := by
    rwa [byteLength_eq_zero.mpr rfl, Nat.zero_add] at hend
  rw [closureNumber?, hend', hpart]
  simp only [hbrace, List.length_pos_iff]
  split <;> rfl

/-- What stands in front of the first `c`, and `c` itself, if there is one. -/
theorem takeWhile_ne_cases (c : Char) (rest : List Char) :
    c ∈ rest ∧ rest.take ((rest.takeWhile (· ≠ c)).length + 1) = rest.takeWhile (· ≠ c) ++ [c] ∨
      c ∉ rest ∧ rest.takeWhile (· ≠ c) = rest := by
  have hsplit := List.takeWhile_append_dropWhile (p := (· ≠ c)) (l := rest)
  have hfirst := List.head?_dropWhile_not (· ≠ c) rest
  cases hbehind : rest.dropWhile (· ≠ c) with
  | nil =>
    rw [hbehind, List.append_nil] at hsplit
    refine .inr ⟨fun hc => ?_, hsplit⟩
    rw [← hsplit] at hc
    simpa using List.mem_takeWhile_imp hc
  | cons first behind =>
    rw [hbehind] at hsplit hfirst
    obtain rfl : first = c := by simpa using hfirst
    refine .inl ⟨by rw [← hsplit]; simp, ?_⟩
    generalize rest.takeWhile (· ≠ first) = before at hsplit ⊢
    rw [← hsplit, List.take_append, List.take_of_length_le (by omega), Nat.add_sub_cancel_left]
    rfl

/-- The fault goes on to the next brace, or to the end if there is none. -/
theorem unsupportedAt?_eq {text : String} {a rest : List Char}
    (h : text.toList = a ++ '\x7b' :: rest) :
    unsupportedAt? text (String.ofList ('\x7b' :: rest)) (byteLength a) =
      some (.error (Misfit.toError (byteLength a) ('\x7b' :: rest)
        ⟨.unsupportedSegment, 2 + (rest.takeWhile (· ≠ '\x7d')).length⟩)) := by
  have hrest : (String.ofList ('\x7b' :: rest)).toList = '\x7b' :: rest := String.toList_ofList
  have hopen : ('\x7b' :: rest).takeWhile (· ≠ '\x7d') = '\x7b' :: rest.takeWhile (· ≠ '\x7d') :=
    rfl
  have htake : ∀ n, ('\x7b' :: rest).take (2 + n) = '\x7b' :: rest.take (n + 1) := by
    intro n
    rw [Nat.add_comm 2, List.take_succ_cons]
  have hsize : text.utf8ByteSize = byteLength a + byteLength ('\x7b' :: rest) := by
    rw [← byteLength_toList, h, byteLength_append]
  rw [unsupportedAt?, hrest, hopen]
  refine refuse?_eq h ⟨.unsupportedSegment, 2 + (rest.takeWhile (· ≠ '\x7d')).length⟩ ?_
  rw [htake]
  obtain ⟨hmem, hbefore⟩ | ⟨hmem, hbefore⟩ := takeWhile_ne_cases '\x7d' rest
  · rw [if_pos (List.mem_cons_of_mem _ hmem), hbefore, ← List.cons_append, byteLength_append,
      ← Nat.add_assoc]
    rfl
  · rw [if_neg (by simpa using hmem), hbefore, List.take_of_length_le (by omega), hsize]

theorem closureAt?_eq {text : String} {a rest : List Char} (h : text.toList = a ++ '\x7b' :: rest) :
    closureAt? text (byteLength a) =
      some ((frontClosure rest).mapError (Misfit.toError (byteLength a) ('\x7b' :: rest))) := by
  have hrest : (String.ofList ('\x7b' :: rest)).toList = '\x7b' :: rest := String.toList_ofList
  have hdrop : ('\x7b' :: rest).drop "\x7bclosure#".length = rest.drop "closure#".length := rfl
  have hplain : "\x7b\x7bclosure\x7d\x7d".toList.isPrefixOf ('\x7b' :: rest) =
    "\x7bclosure\x7d\x7d".toList.isPrefixOf rest := rfl
  have hnumbered : "\x7bclosure#".toList.isPrefixOf ('\x7b' :: rest) =
    "closure#".toList.isPrefixOf rest := rfl
  rw [closureAt?, partFrom?_eq h, Option.bind_some, hrest, hdrop, hplain, hnumbered,
    closureNumber?_eq, unsupportedAt?_eq h]
  unfold frontClosure
  dsimp only
  split
  · rfl
  · rw [← List.getElem?_drop]
    generalize rest.drop "closure#".length = tail
    by_cases hstarts : "closure#".toList.isPrefixOf rest = true
    · by_cases hdigits : tail.takeWhile Char.isDigit ≠ [] ∧
          tail[(tail.takeWhile Char.isDigit).length]? = some '\x7d'
      · rw [if_pos hstarts, if_pos hdigits, if_pos ⟨hstarts, hdigits⟩]
        simp [Except.mapError]
      · rw [if_pos hstarts, if_neg hdigits, if_neg fun hall => hdigits hall.2]
        rfl
    · rw [if_neg hstarts, if_neg fun hall => hstarts hall.1]
      rfl

theorem front_wide {c : Char} (hc : c.utf8Size ≠ 1) (rest : List Char) :
    front c rest = .error ⟨.unexpectedCharacter, 1⟩ := by
  have hword : ¬ isWordStart c = true :=
    fun h => hc (utf8Size_wordPart (isWordPart_of_isWordStart h))
  unfold front
  split <;> first | exact absurd rfl hc | exact if_neg hword

theorem separatorAt?_eq {text : String} {a rest : List Char} (h : text.toList = a ++ ':' :: rest) :
    frontAt? text (byteLength a) ':' =
      some ((front ':' rest).mapError (Misfit.toError (byteLength a) (':' :: rest))) := by
  have hnext : text.toList = (a ++ [':']) ++ rest := by rw [h, List.append_cons]
  have hcolon := byteAt?_eq_some_iff (c := ':') rfl hnext
  have hwidth : byteLength (a ++ [':']) = byteLength a + 1 := by rw [byteLength_append]; rfl
  rw [hwidth] at hcolon
  simp only [frontAt?, front, hcolon]
  split
  · rfl
  · exact refuse?_eq h ⟨.loneColon, 1⟩ rfl

/-- The first byte of a character is enough to find the lexeme that starts with it. -/
theorem frontAt?_eq {text : String} {a rest : List Char} {b c : Char}
    (h : text.toList = a ++ c :: rest) (hleads : Leads b c) :
    frontAt? text (byteLength a) b =
      some ((front c rest).mapError (Misfit.toError (byteLength a) (c :: rest))) := by
  obtain rfl | ⟨hb, hc⟩ := hleads
  · unfold frontAt?
    split
    case h_1 => exact separatorAt?_eq h
    case h_6 => exact lifetimeAt?_eq h
    case h_7 => exact closureAt?_eq h
    case h_8 =>
      split
      · next hword =>
        rw [wordAt?_eq hword h, front_wordStart hword]
        rfl
      · next hword =>
        rw [unexpectedAt?_eq h]
        unfold front
        split <;> first | contradiction | rw [if_neg hword]; rfl
    all_goals rfl
  · have hword : ¬ isWordStart b = true :=
      fun h => hb (utf8Size_wordPart (isWordPart_of_isWordStart h))
    rw [front_wide hc]
    unfold frontAt?
    split <;> first | exact absurd rfl hb | rw [if_neg hword, unexpectedAt?_eq h]; rfl

/-! ## The whole text -/

theorem isBlank_of_leads {b c : Char} (h : Leads b c) : isBlank b = isBlank c := by
  obtain rfl | ⟨hb, hc⟩ := h
  · rfl
  · have hb' : isBlank b = false := Bool.eq_false_iff.mpr fun h => hb (utf8Size_blank h)
    have hc' : isBlank c = false := Bool.eq_false_iff.mpr fun h => hc (utf8Size_blank h)
    rw [hb', hc']

/-- A lexeme at the front is ASCII, so its end is known in bytes. -/
theorem front_width {c : Char} {rest : List Char} {l : Lexeme} {more : Nat}
    (h : front c rest = .ok (l, more)) :
    byteLength (c :: rest.take more) = 1 + more := by
  obtain ⟨text, behind, rfl, rfl, hspells, -⟩ := spells_front h
  rw [List.take_left, hspells.byteLength_eq, List.length_cons, Nat.add_comm]

theorem tokensAt?_eq {text : String} {a rest : List Char} (h : text.toList = a ++ rest) :
    tokensAt? text (byteLength a) = some (tokensFrom (byteLength a) rest) := by
  induction hn : rest.length using Nat.strong_induction_on generalizing a rest with
  | _ n ih =>
    have hsize : text.utf8ByteSize = byteLength a + byteLength rest := by
      rw [← byteLength_toList, h, byteLength_append]
    cases rest with
    | nil =>
      rw [tokensAt?, if_neg (by rw [hsize]; simp [byteLength]), tokensFrom]
    | cons c rest =>
      obtain ⟨b, hbyte, hleads⟩ := byteAt?_cons h
      have hpos := c.utf8Size_pos
      rw [byteLength_cons] at hsize
      rw [List.length_cons] at hn
      rw [tokensAt?, if_pos (by omega), hbyte, Option.bind_some, isBlank_of_leads hleads]
      by_cases hblank : isBlank c = true
      · have hnext := ih rest.length (by omega) (a := a ++ [c]) (by simpa using h) rfl
        have hwidth : byteLength (a ++ [c]) = byteLength a + 1 := by
          rw [byteLength_append, byteLength_cons, utf8Size_blank hblank]
          rfl
        rw [hwidth] at hnext
        rw [if_pos hblank, hnext, tokensFrom, if_pos hblank]
      · rw [if_neg hblank, frontAt?_eq h hleads, Option.bind_some, tokensFrom, if_neg hblank]
        cases hfront : front c rest with
        | error misfit => rfl
        | ok found =>
          obtain ⟨l, more⟩ := found
          have hlexeme := front_width hfront
          have hwidth : byteLength (a ++ c :: rest.take more) = byteLength a + 1 + more := by
            rw [byteLength_append, hlexeme, Nat.add_assoc]
          have hnext := ih (rest.drop more).length (by rw [List.length_drop]; omega)
            (a := a ++ c :: rest.take more) (by simpa using h) rfl
          rw [hwidth] at hnext
          simp only [Except.mapError, hnext, Option.map_some]
          cases tokensFrom (byteLength a + 1 + more) (rest.drop more) <;> rfl

end CrateTrace.Name
