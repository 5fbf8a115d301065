import LaunchTrace.Proofs.Json.RoundTrip
import Mathlib.Data.List.DropRight

/-! Texts that are cut off. What is read at the front of a text is still read there where the text goes on, except that
a number may go on too. So no beginning of a written object is a value: the object would be read twice, once with
nothing and once with something left behind it. -/
namespace LaunchTrace.Json

variable {s tail rest digits spelling : List Char} {units : List Nat} {c : Char}

/-- A reading that is changed afterwards leaves what it left. -/
theorem some_of_map {α β : Type} {f : α → β} {found : Option (α × List Char)} {b : β}
    (mapped : (found.map fun (a, rest) => (f a, rest)) = some (b, rest)) : ∃ a, found = some (a, rest) ∧ b = f a := by
  obtain ⟨⟨a, left⟩, inner, same⟩ := Option.map_eq_some_iff.mp mapped
  obtain ⟨rfl, rfl⟩ := Prod.mk.inj same
  exact ⟨a, inner, rfl⟩

theorem skipSpace_append (found : skipSpace s = c :: tail) (back : List Char) :
    skipSpace (s ++ back) = c :: (tail ++ back) := by
  rw [skipSpace] at found
  rw [skipSpace, List.dropWhile_append, found]
  rfl

theorem scanString_append (scanned : scanString s = some (units, rest)) (back : List Char) :
    scanString (s ++ back) = some (units, rest ++ back) := by
  fun_induction scanString s generalizing units with
  | case1 => contradiction
  | case2 tail =>
    obtain ⟨rfl, rfl⟩ := Prod.mk.inj (Option.some.inj scanned)
    rfl
  | case3 _ _ _ _ tail _ _ _ _ fourth third second first ih =>
    obtain ⟨found, inner, rfl⟩ := some_of_map scanned
    simp only [List.cons_append, scanString, first, second, third, fourth, ih inner, Option.map_some]
  | case4 => contradiction
  | case5 e tail _ _ escaped ih =>
    obtain ⟨found, inner, rfl⟩ := some_of_map scanned
    have other : e ≠ 'u' := by
      rintro rfl
      contradiction
    rw [List.cons_append, List.cons_append, scanString_escaped other escaped, ih inner]
    rfl
  | case6 => contradiction
  | case7 => contradiction
  | case8 _ tail quote _ _ plain ih =>
    obtain ⟨found, inner, rfl⟩ := some_of_map scanned
    obtain ⟨visible, backslash⟩ := not_or.mp plain
    rw [List.cons_append, scanString_plain quote backslash visible, ih inner]
    rfl

theorem scanDigits_append_of_ne_nil (scanned : scanDigits s = some (digits, rest)) (some : rest ≠ []) (back : List Char) :
    scanDigits (s ++ back) = Option.some (digits, rest ++ back) := by
  unfold scanDigits at scanned ⊢
  split at scanned
  · contradiction
  · rename_i figures
    obtain ⟨rfl, rfl⟩ := Prod.mk.inj (Option.some.inj scanned)
    have shorter : (s.takeWhile Char.isDigit).length ≠ s.length := by
      intro whole
      have parts := congrArg List.length (s.takeWhile_append_dropWhile (p := Char.isDigit))
      rw [List.length_append] at parts
      exact some (List.eq_nil_of_length_eq_zero (by omega))
    rw [List.takeWhile_append, if_neg shorter, if_neg figures, List.dropWhile_append, if_neg (by simpa using some)]

theorem scanWhole_append (scanned : scanWhole s = some (digits, rest)) (some : rest ≠ []) (back : List Char) :
    scanWhole (s ++ back) = Option.some (digits, rest ++ back) := by
  unfold scanWhole at scanned
  split at scanned
  · contradiction
  · rename_i alone
    unfold scanWhole
    rw [scanDigits_append_of_ne_nil scanned some back]
    split
    · rename_i same
      obtain ⟨rfl, -⟩ := Prod.mk.inj (Option.some.inj same)
      exact (alone _ _ _ scanned).elim
    · rfl

theorem scanFraction_append (scanned : scanFraction s = some (digits, rest)) (some : rest ≠ []) (back : List Char) :
    scanFraction (s ++ back) = Option.some (digits, rest ++ back) := by
  unfold scanFraction at scanned
  split at scanned
  · obtain ⟨found, inner, rfl⟩ := some_of_map scanned
    rw [List.cons_append, scanFraction, scanDigits_append_of_ne_nil inner some]
    rfl
  · rename_i other
    obtain ⟨rfl, rfl⟩ := Prod.mk.inj (Option.some.inj scanned)
    obtain ⟨c, tail, rfl⟩ := List.exists_cons_of_ne_nil some
    rw [List.cons_append, scanFraction]
    rintro _ same
    exact other tail (by rw [(List.cons.inj same).1])

theorem scanExponent_append (scanned : scanExponent s = some (digits, rest)) (some : rest ≠ []) (back : List Char) :
    scanExponent (s ++ back) = Option.some (digits, rest ++ back) := by
  unfold scanExponent at scanned
  split at scanned
  · rename_i e tail
    split at scanned
    · rename_i exponent
      split at scanned
      · rename_i sign behind
        split at scanned
        · rename_i signed
          obtain ⟨found, inner, rfl⟩ := some_of_map (f := fun digits => e :: sign :: digits) scanned
          simp only [List.cons_append, scanExponent, if_pos exponent, if_pos signed,
            scanDigits_append_of_ne_nil inner some, Option.map_some]
        · rename_i unsigned
          obtain ⟨found, inner, rfl⟩ := some_of_map scanned
          have figures := scanDigits_append_of_ne_nil inner some back
          simp only [List.cons_append] at figures
          simp only [List.cons_append, scanExponent, if_pos exponent, if_neg unsigned, figures, Option.map_some]
      · contradiction
    · rename_i other
      obtain ⟨rfl, rfl⟩ := Prod.mk.inj (Option.some.inj scanned)
      simp only [List.cons_append, scanExponent, if_neg other]
  · obtain ⟨-, rfl⟩ := Prod.mk.inj (Option.some.inj scanned)
    contradiction

/-- A number that something follows ends where it did. -/
theorem scanMagnitude_append (scanned : scanMagnitude s = some (spelling, rest)) (some : rest ≠ [])
    (back : List Char) : scanMagnitude (s ++ back) = Option.some (spelling, rest ++ back) := by
  simp only [scanMagnitude, Option.bind_eq_bind, Option.bind_eq_some_iff] at scanned
  obtain ⟨⟨whole, second⟩, first, ⟨fraction, third⟩, middle, ⟨exponent, last⟩, final, same⟩ := scanned
  obtain ⟨rfl, rfl⟩ := Prod.mk.inj (Option.some.inj same)
  have third_some : third ≠ [] := by
    rintro rfl
    exact some (Prod.mk.inj (Option.some.inj final)).2.symm
  have second_some : second ≠ [] := by
    rintro rfl
    exact third_some (Prod.mk.inj (Option.some.inj middle)).2.symm
  simp only [scanMagnitude, scanWhole_append first second_some, scanFraction_append middle third_some,
    scanExponent_append final some, Option.bind_eq_bind, Option.bind_some]
  rfl

theorem scanDigits_head (scanned : scanDigits s = some (digits, rest)) : ∃ c tail, s = c :: tail ∧ c.isDigit = true := by
  cases s with
  | nil => contradiction
  | cons c tail =>
    refine ⟨c, tail, rfl, ?_⟩
    by_contra letter
    rw [scanDigits, List.takeWhile_cons_of_neg letter, if_pos rfl] at scanned
    contradiction

/-- A number starts with a minus or a digit. -/
theorem scanNumber_head (scanned : scanNumber s = some (spelling, rest)) :
    ∃ c tail, s = c :: tail ∧ (c = '-' ∨ c.isDigit = true) := by
  unfold scanNumber at scanned
  split at scanned
  · exact ⟨'-', _, rfl, .inl rfl⟩
  · simp only [scanMagnitude, Option.bind_eq_bind, Option.bind_eq_some_iff] at scanned
    obtain ⟨⟨whole, behind⟩, first, -⟩ := scanned
    unfold scanWhole at first
    split at first
    · contradiction
    · obtain ⟨c, tail, start, figure⟩ := scanDigits_head first
      exact ⟨c, tail, start, .inr figure⟩

theorem scanNumber_append (scanned : scanNumber s = some (spelling, rest)) (some : rest ≠ []) (back : List Char) :
    scanNumber (s ++ back) = Option.some (spelling, rest ++ back) := by
  obtain ⟨c, tail, rfl, -⟩ := scanNumber_head scanned
  unfold scanNumber at scanned
  split at scanned
  · rename_i minus
    obtain ⟨rfl, rfl⟩ := List.cons.inj minus
    obtain ⟨found, inner, rfl⟩ := some_of_map scanned
    rw [List.cons_append, scanNumber, scanMagnitude_append inner some]
    rfl
  · rename_i unsigned
    rw [List.cons_append, scanNumber]
    · exact scanMagnitude_append scanned some back
    · rintro _ minus
      exact unsigned tail (by rw [(List.cons.inj minus).1])

theorem skipSpace_skipSpace (s : List Char) : skipSpace (skipSpace s) = skipSpace s :=
  List.dropWhile_idempotent _ _

theorem readKey_skipSpace (s : List Char) : readKey (skipSpace s) = readKey s := by
  rw [readKey, readKey, skipSpace_skipSpace]

theorem readKey_append {key : Option String} (read : readKey s = some (key, rest)) (back : List Char) :
    readKey (s ++ back) = some (key, rest ++ back) := by
  obtain ⟨tail, quote⟩ : ∃ tail, skipSpace s = '"' :: tail := by
    unfold readKey at read
    split at read
    · exact ⟨_, ‹_›⟩
    · contradiction
  rw [← readKey_skipSpace, quote, readKey_quote, Option.bind_eq_some_iff] at read
  obtain ⟨⟨units, behind⟩, scanned, read⟩ := read
  dsimp only at read
  split at read
  · rename_i colon
    obtain ⟨rfl, rfl⟩ := Prod.mk.inj (Option.some.inj read)
    rw [← readKey_skipSpace, skipSpace_append quote back, readKey_quote, scanString_append scanned back,
      Option.bind_some]
    dsimp only
    rw [skipSpace_append colon back]
    rfl
  · contradiction

/-- What is read as a value is read again where the text goes on, unless it is a number that reached up to the end. -/
def ValueStays (fuel : Nat) : Prop :=
  ∀ {s rest : List Char} {v : Json}, readValue fuel s = some (v, rest) →
    (rest = [] → ∀ spelling, v ≠ .number spelling) →
      ∀ {more : Nat}, fuel ≤ more → ∀ back, readValue more (s ++ back) = some (v, rest ++ back)

def ItemsStay (fuel : Nat) : Prop :=
  ∀ {s rest : List Char} {items : List Json}, readItems fuel s = some (items, rest) →
    ∀ {more : Nat}, fuel ≤ more → ∀ back, readItems more (s ++ back) = some (items, rest ++ back)

def MembersStay (fuel : Nat) : Prop :=
  ∀ {s rest : List Char} {members : List (Option String × Json)}, readMembers fuel s = some (members, rest) →
    ∀ {more : Nat}, fuel ≤ more → ∀ back, readMembers more (s ++ back) = some (members, rest ++ back)

variable {fuel : Nat}

theorem itemsStay_succ (value : ValueStays fuel) (items : ItemsStay fuel) : ItemsStay (fuel + 1) := by
  intro s rest found read more enough back
  obtain ⟨more, rfl⟩ : ∃ k, more = k + 1 := Nat.exists_eq_add_one.mpr (by omega)
  rw [readItems] at read ⊢
  split at read
  · contradiction
  · rename_i item behind first
    have some (next : Char) (tail : List Char) (skipped : skipSpace behind = next :: tail) :
        readValue more (s ++ back) = some (item, behind ++ back) := by
      refine value first ?_ (by omega) back
      rintro rfl
      contradiction
    split at read
    · rename_i comma
      obtain ⟨found, inner, rfl⟩ := some_of_map read
      rw [some _ _ comma]
      dsimp only
      rw [skipSpace_append comma back]
      have later := items inner (show fuel ≤ more by omega) back
      exact congrArg (Option.map fun found => (item :: found.1, found.2)) later
    · rename_i bracket
      obtain ⟨rfl, rfl⟩ := Prod.mk.inj (Option.some.inj read)
      rw [some _ _ bracket]
      dsimp only
      rw [skipSpace_append bracket back]
      rfl
    · contradiction

theorem membersStay_succ (value : ValueStays fuel) (members : MembersStay fuel) : MembersStay (fuel + 1) := by
  intro s rest found read more enough back
  obtain ⟨more, rfl⟩ : ∃ k, more = k + 1 := Nat.exists_eq_add_one.mpr (by omega)
  rw [readMembers] at read ⊢
  split at read
  · contradiction
  · rename_i key start named
    rw [readKey_append named back]
    dsimp only
    split at read
    · contradiction
    · rename_i v behind first
      have some (next : Char) (tail : List Char) (skipped : skipSpace behind = next :: tail) :
          readValue more (start ++ back) = some (v, behind ++ back) := by
        refine value first ?_ (by omega) back
        rintro rfl
        contradiction
      split at read
      · rename_i comma
        obtain ⟨found, inner, rfl⟩ := some_of_map read
        rw [some _ _ comma]
        dsimp only
        rw [skipSpace_append comma back]
        have later := members inner (show fuel ≤ more by omega) back
        exact congrArg (Option.map fun found => ((key, v) :: found.1, found.2)) later
      · rename_i brace
        obtain ⟨rfl, rfl⟩ := Prod.mk.inj (Option.some.inj read)
        rw [some _ _ brace]
        dsimp only
        rw [skipSpace_append brace back]
        rfl
      · contradiction

theorem readValue_skipSpace (fuel : Nat) (s : List Char) : readValue fuel (skipSpace s) = readValue fuel s := by
  cases fuel with
  | zero => rfl
  | succ fuel => rw [readValue, readValue, skipSpace_skipSpace]

theorem readValue_nil (fuel : Nat) : readValue fuel [] = none := by
  cases fuel <;> rfl

theorem readValue_minus (tail : List Char) :
    readValue (fuel + 1) ('-' :: tail) =
      (scanNumber ('-' :: tail)).map fun (spelling, rest) => (.number spelling, rest) := by
  rw [readValue, skipSpace_cons (by decide)]
  rfl

theorem readItems_head {items : List Json} (read : readItems fuel s = some (items, rest)) : ∃ c tail, s = c :: tail := by
  apply List.exists_cons_of_ne_nil
  rintro rfl
  cases fuel with
  | zero => contradiction
  | succ fuel =>
    rw [readItems, readValue_nil] at read
    contradiction

theorem readMembers_head {members : List (Option String × Json)} (read : readMembers fuel s = some (members, rest)) :
    ∃ c tail, s = c :: tail := by
  apply List.exists_cons_of_ne_nil
  rintro rfl
  cases fuel <;> contradiction

theorem valueStays_succ (items : ItemsStay fuel) (members : MembersStay fuel) : ValueStays (fuel + 1) := by
  intro s rest v read whole more enough back
  obtain ⟨more, rfl⟩ : ∃ k, more = k + 1 := Nat.exists_eq_add_one.mpr (by omega)
  have fewer : fuel ≤ more := by omega
  rw [readValue] at read
  rw [← readValue_skipSpace]
  split at read <;> rename_i start
  · obtain ⟨rfl, rfl⟩ := Prod.mk.inj (Option.some.inj read)
    rw [skipSpace_append start back]
    rfl
  · obtain ⟨rfl, rfl⟩ := Prod.mk.inj (Option.some.inj read)
    rw [skipSpace_append start back]
    rfl
  · obtain ⟨rfl, rfl⟩ := Prod.mk.inj (Option.some.inj read)
    rw [skipSpace_append start back]
    rfl
  · obtain ⟨literal, scanned, rfl⟩ := some_of_map (f := fun units => Json.string (literalText units)) read
    rw [skipSpace_append start back, readValue_quote, scanString_append scanned back]
    rfl
  · rw [skipSpace_append start back, readValue_array]
    split at read <;> rename_i next
    · obtain ⟨rfl, rfl⟩ := Prod.mk.inj (Option.some.inj read)
      rw [skipSpace_append next back]
      rfl
    · obtain ⟨found, inner, rfl⟩ := some_of_map read
      obtain ⟨c, tail, first⟩ := readItems_head inner
      rw [skipSpace_append first back]
      rw [first] at inner
      split
      · rename_i bracket
        exact (next tail (by rw [first, (List.cons.inj bracket).1])).elim
      · exact congrArg (Option.map fun found => (Json.array found.1, found.2)) (items inner fewer back)
  · rw [skipSpace_append start back, readValue_object]
    split at read <;> rename_i next
    · obtain ⟨rfl, rfl⟩ := Prod.mk.inj (Option.some.inj read)
      rw [skipSpace_append next back]
      rfl
    · obtain ⟨found, inner, rfl⟩ := some_of_map read
      obtain ⟨c, tail, first⟩ := readMembers_head inner
      rw [skipSpace_append first back]
      rw [first] at inner
      split
      · rename_i brace
        exact (next tail (by rw [first, (List.cons.inj brace).1])).elim
      · exact congrArg (Option.map fun found => (Json.object found.1, found.2)) (members inner fewer back)
  · obtain ⟨spelling, scanned, rfl⟩ := some_of_map read
    have some : rest ≠ [] := fun none => whole none _ rfl
    obtain ⟨c, tail, first, number⟩ := scanNumber_head scanned
    rw [first] at scanned
    have longer := congrArg (Option.map fun found => (Json.number found.1, found.2)) (scanNumber_append scanned some back)
    rw [skipSpace_append first back]
    rcases number with rfl | figure
    · rw [readValue_minus]
      exact longer
    · rw [readValue_number figure]
      exact longer

/-- Reading looks no further than the value, the items or the members that it reads. -/
theorem reading_stays (fuel : Nat) : ValueStays fuel ∧ ItemsStay fuel ∧ MembersStay fuel := by
  induction fuel with
  | zero => exact ⟨(fun read => nomatch read), (fun read => nomatch read), (fun read => nomatch read)⟩
  | succ fuel ih =>
    obtain ⟨value, items, members⟩ := ih
    exact ⟨valueStays_succ items members, itemsStay_succ value items, membersStay_succ value members⟩

theorem readValue_brace_object {v : Json} (read : readValue fuel ('{' :: tail) = some (v, rest)) :
    ∃ members, v = .object members := by
  cases fuel with
  | zero => contradiction
  | succ fuel =>
    rw [readValue_object] at read
    split at read
    · exact ⟨[], (Prod.mk.inj (Option.some.inj read)).1.symm⟩
    · obtain ⟨found, -, same⟩ := Option.map_eq_some_iff.mp read
      exact ⟨found.1, (Prod.mk.inj same).1.symm⟩

/-- No beginning of a written object is a value. -/
theorem parse_cut {members : List (String × Json)} {front back : List Char} (plain : Plain (.ofMembers members))
    (whole : render (.ofMembers members) = front ++ back) (begun : front ≠ []) (cut : back ≠ []) :
    parse front = none := by
  obtain ⟨c, tail, rfl⟩ := List.exists_cons_of_ne_nil begun
  obtain rfl : c = '{' := by
    rw [ofMembers, render, List.cons_append, List.cons_append] at whole
    exact (List.cons.inj whole).1.symm
  rw [parse]
  split
  · rename_i v rest read
    obtain ⟨found, rfl⟩ := readValue_brace_object read
    -- With fuel for the whole object, this value is read off it with all of `back` left behind.
    have early := (reading_stays _).1 read (by intro _ _ same; cases same)
      (show _ ≤ 2 * (render (.ofMembers members)).length + 2 by rw [whole, List.length_append]; omega) back
    have late := plain.reads (2 * (render (.ofMembers members)).length + 2) [] (Nat.le_add_right _ _) (by simp [Ends])
    rw [List.append_nil, whole] at late
    rw [whole] at early
    obtain ⟨-, none⟩ := Prod.mk.inj (Option.some.inj (early.symm.trans late))
    exact absurd (List.append_eq_nil_iff.mp none).2 cut
  · rfl

end LaunchTrace.Json
