import LaunchTrace.Json.Record
import LaunchTrace.Proofs.Json.Literal

/-! What is written on one line is read as the value that was written, to its last character. -/
namespace LaunchTrace.Json

/-- Values whose literals are texts and whose numbers are natural ones. -/
inductive Plain : Json → Prop where
  | null : Plain .null
  | bool (b : Bool) : Plain (.bool b)
  | number (n : Nat) : Plain (.ofNat n)
  | string (s : String) : Plain (.ofString s)
  | array {items : List Json} (items_plain : ∀ item ∈ items, Plain item) : Plain (.array items)
  | object {members : List (String × Json)} (members_plain : ∀ member ∈ members, Plain member.2) :
    Plain (.ofMembers members)

variable {c : Char} {v : Json} {rest tail : List Char} {fuel : Nat}

/-! ## What the first character decides -/

theorem skipSpace_cons (solid : isSpace c = false) : skipSpace (c :: tail) = c :: tail := by
  rw [skipSpace, List.dropWhile_cons_of_neg (by simp [solid])]

theorem isSpace_of_isDigit (figure : c.isDigit = true) : isSpace c = false := by
  have other (d : Char) (letter : d.isDigit = false) : c ≠ d := Text.ne_of_isDigit figure letter
  simp [isSpace, other ' ' (by decide), other '\n' (by decide), other '\t' (by decide), other '\r' (by decide)]

theorem readKey_quote (tail : List Char) : readKey ('"' :: tail) =
    (scanString tail).bind fun (units, rest) =>
      match skipSpace rest with
      | ':' :: rest => some (literalText units, rest)
      | _ => none := by
  rw [readKey, skipSpace_cons (by decide)]
  split
  · rename_i same
    obtain rfl := (List.cons.inj same).2
    cases scanString tail <;> rfl
  · rename_i other
    exact absurd rfl (other tail)

theorem readValue_quote :
    readValue (fuel + 1) ('"' :: tail) =
      (scanString tail).map fun (units, rest) => (.string (literalText units), rest) := by
  rw [readValue, skipSpace_cons (by decide)]
  rfl

theorem readValue_array (fuel : Nat) (tail : List Char) : readValue (fuel + 1) ('[' :: tail) =
    match skipSpace tail with
    | ']' :: rest => some (.array [], rest)
    | rest => (readItems fuel rest).map fun (items, rest) => (.array items, rest) := by
  rw [readValue, skipSpace_cons (by decide)]
  rfl

theorem readValue_object (fuel : Nat) (tail : List Char) : readValue (fuel + 1) ('{' :: tail) =
    match skipSpace tail with
    | '}' :: rest => some (.object [], rest)
    | rest => (readMembers fuel rest).map fun (members, rest) => (.object members, rest) := by
  rw [readValue, skipSpace_cons (by decide)]
  rfl

theorem readValue_number (figure : c.isDigit = true) :
    readValue (fuel + 1) (c :: tail) =
      (scanNumber (c :: tail)).map fun (spelling, rest) => (.number spelling, rest) := by
  have other (d : Char) (letter : d.isDigit = false) : c ≠ d := Text.ne_of_isDigit figure letter
  rw [readValue, skipSpace_cons (isSpace_of_isDigit figure)]
  split <;> rename_i same
  · exact absurd (List.cons.inj same).1 (other _ (by decide))
  · exact absurd (List.cons.inj same).1 (other _ (by decide))
  · exact absurd (List.cons.inj same).1 (other _ (by decide))
  · exact absurd (List.cons.inj same).1 (other _ (by decide))
  · exact absurd (List.cons.inj same).1 (other _ (by decide))
  · exact absurd (List.cons.inj same).1 (other _ (by decide))
  · rfl

/-! ## Values -/

/-- A value starts with a character of its own. -/
theorem Plain.render_head (plain : Plain v) :
    ∃ c tail, render v = c :: tail ∧ isSpace c = false ∧ c ≠ ']' ∧ c ≠ '}' := by
  cases plain with
  | null => exact ⟨'n', _, rfl, by decide⟩
  | bool b =>
    cases b with
    | true => exact ⟨'t', _, rfl, by decide⟩
    | false => exact ⟨'f', _, rfl, by decide⟩
  | number n =>
    obtain ⟨c, tail, digits, figure⟩ := Text.toDigits_cons n
    exact ⟨c, tail, digits, isSpace_of_isDigit figure, Text.ne_of_isDigit figure (by decide),
      Text.ne_of_isDigit figure (by decide)⟩
  | string s => exact ⟨'"', _, rfl, by decide⟩
  | array => exact ⟨'[', _, by rw [render, List.cons_append], by decide⟩
  | object => exact ⟨'{', _, by rw [ofMembers, render, List.cons_append], by decide⟩

/-- A value is read off the front of what follows it, given fuel for each of its characters. -/
def Reads (v : Json) : Prop :=
  ∀ fuel rest, 2 * (render v).length ≤ fuel → Ends rest → readValue fuel (render v ++ rest) = some (v, rest)

theorem reads_number (n : Nat) : Reads (.ofNat n) := by
  intro fuel rest enough ends
  rw [ofNat, render] at enough ⊢
  have some : 0 < (Nat.toDigits 10 n).length := Nat.length_toDigits_pos
  obtain ⟨fuel, rfl⟩ : ∃ k, fuel = k + 1 := Nat.exists_eq_add_one.mpr (by omega)
  obtain ⟨c, tail, digits, figure⟩ := Text.toDigits_cons n
  have scanned := scanNumber_toDigits n ends
  rw [digits, List.cons_append] at scanned ⊢
  rw [readValue_number figure, scanned]
  rfl

theorem literal_append (s rest : List Char) :
    literal s ++ rest = '"' :: (s.flatMap escapeChar ++ '"' :: rest) := by
  simp [literal]

theorem reads_string (s : String) : Reads (.ofString s) := by
  intro fuel rest enough ends
  rw [ofString, render, literalOf, Option.getD_some] at enough ⊢
  obtain ⟨fuel, rfl⟩ : ∃ k, fuel = k + 1 := Nat.exists_eq_add_one.mpr (by simp [literal] at enough; omega)
  rw [literal_append, readValue_quote, scanString_literal, Option.map_some]
  exact congrArg (fun text => some (Json.string text, rest)) (literalText_map s)

theorem readItems_render {items : List Json} (some : items ≠ []) (reads : ∀ item ∈ items, Reads item)
    (enough : 2 * (renderItems items).length + 1 ≤ fuel) :
    readItems fuel (renderItems items ++ ']' :: rest) = Option.some (items, rest) := by
  induction items generalizing fuel with
  | nil => contradiction
  | cons item items ih =>
    obtain ⟨fuel, rfl⟩ : ∃ k, fuel = k + 1 := Nat.exists_eq_add_one.mpr (by omega)
    have first := reads item List.mem_cons_self
    -- The fuel for an item's comma or bracket pays for the step to what follows.
    cases items with
    | nil =>
      rw [renderItems] at enough ⊢
      rw [readItems, first fuel _ (by omega) (by simp [Ends])]
      dsimp only
      rw [skipSpace_cons (by decide)]
      rfl
    | cons next items =>
      rw [renderItems] at enough ⊢
      · rw [List.length_append, List.length_cons] at enough
        have later : readItems fuel (renderItems (next :: items) ++ ']' :: rest) = Option.some (next :: items, rest) :=
          ih (by simp) (fun item member => reads item (List.mem_cons_of_mem _ member)) (by omega)
        rw [List.append_assoc, readItems, first fuel _ (by omega) (by simp [Ends])]
        dsimp only
        rw [List.cons_append, skipSpace_cons (by decide)]
        exact congrArg (Option.map fun found => (item :: found.1, found.2)) later
      · simp
      · simp

theorem readKey_render (key : String) : readKey (literal key.toList ++ ':' :: rest) = some (some key, rest) := by
  rw [literal_append, readKey_quote, scanString_literal, Option.bind_some]
  dsimp only
  rw [skipSpace_cons (by decide)]
  exact congrArg (fun text => some (text, rest)) (literalText_map key)

/-- Members as an object has them. -/
def named (members : List (String × Json)) : List (Option String × Json) :=
  members.map fun (key, value) => (some key, value)

theorem renderMembers_last (key : String) (value : Json) :
    renderMembers (named [(key, value)]) = literal key.toList ++ ':' :: render value := by
  rw [named, List.map_singleton, renderMembers]
  rfl

theorem renderMembers_more (key : String) (value : Json) (next : String × Json) (members : List (String × Json)) :
    renderMembers (named ((key, value) :: next :: members)) =
      literal key.toList ++ ':' :: (render value ++ ',' :: renderMembers (named (next :: members))) := by
  simp only [named, List.map_cons]
  rw [renderMembers, List.append_assoc, List.cons_append]
  · rfl
  · simp

theorem readMembers_render {members : List (String × Json)} (some : members ≠ [])
    (reads : ∀ member ∈ members, Reads member.2) (enough : 2 * (renderMembers (named members)).length + 1 ≤ fuel) :
    readMembers fuel (renderMembers (named members) ++ '}' :: rest) = Option.some (named members, rest) := by
  induction members generalizing fuel with
  | nil => contradiction
  | cons member members ih =>
    obtain ⟨fuel, rfl⟩ : ∃ k, fuel = k + 1 := Nat.exists_eq_add_one.mpr (by omega)
    obtain ⟨key, value⟩ := member
    have first : Reads value := reads (key, value) List.mem_cons_self
    cases members with
    | nil =>
      rw [renderMembers_last] at enough ⊢
      rw [List.length_append, List.length_cons] at enough
      rw [List.append_assoc, List.cons_append, readMembers, readKey_render]
      dsimp only
      rw [first fuel _ (by omega) (by simp [Ends])]
      dsimp only
      rw [skipSpace_cons (by decide)]
      rfl
    | cons next members =>
      rw [renderMembers_more] at enough ⊢
      rw [List.length_append, List.length_cons, List.length_append, List.length_cons] at enough
      have later : readMembers fuel (renderMembers (named (next :: members)) ++ '}' :: rest) =
          Option.some (named (next :: members), rest) :=
        ih (by simp) (fun member among => reads member (List.mem_cons_of_mem _ among)) (by omega)
      rw [List.append_assoc, List.cons_append, readMembers, readKey_render]
      dsimp only
      rw [List.append_assoc, first fuel _ (by omega) (by simp [Ends])]
      dsimp only
      rw [List.cons_append, skipSpace_cons (by decide)]
      exact congrArg (Option.map fun found => ((Option.some key, value) :: found.1, found.2)) later

/-- Behind a bracket there is the end of the array, or its first item. -/
theorem readValue_bracket (solid : isSpace c = false) (other : c ≠ ']') :
    readValue (fuel + 1) ('[' :: c :: tail) =
      (readItems fuel (c :: tail)).map fun (items, rest) => (.array items, rest) := by
  rw [readValue_array, skipSpace_cons solid]
  split
  · rename_i same
    exact absurd (List.cons.inj same).1 other
  · rfl

/-- Behind a brace there is the end of the object, or its first member. -/
theorem readValue_brace :
    readValue (fuel + 1) ('{' :: '"' :: tail) =
      (readMembers fuel ('"' :: tail)).map fun (members, rest) => (.object members, rest) := by
  rw [readValue_object, skipSpace_cons (by decide)]
  rfl

theorem renderItems_head {item : Json} (items : List Json) (plain : Plain item) :
    ∃ c tail, renderItems (item :: items) = c :: tail ∧ isSpace c = false ∧ c ≠ ']' := by
  obtain ⟨c, tail, text, solid, other, -⟩ := plain.render_head
  cases items with
  | nil => exact ⟨c, tail, by rw [renderItems, text], solid, other⟩
  | cons next items => exact ⟨c, _, by rw [renderItems, text, List.cons_append]; simp, solid, other⟩

theorem renderMembers_head (member : String × Json) (members : List (String × Json)) :
    ∃ tail, renderMembers (named (member :: members)) = '"' :: tail := by
  obtain ⟨key, value⟩ := member
  cases members with
  | nil => exact ⟨_, by rw [renderMembers_last, literal_append]⟩
  | cons next members => exact ⟨_, by rw [renderMembers_more, literal_append]⟩

theorem Plain.reads (plain : Plain v) : Reads v := by
  induction plain with
  | null =>
    intro fuel rest enough ends
    obtain ⟨fuel, rfl⟩ : ∃ k, fuel = k + 1 := Nat.exists_eq_add_one.mpr (by simp [render] at enough; omega)
    rfl
  | bool b =>
    intro fuel rest enough ends
    obtain ⟨fuel, rfl⟩ : ∃ k, fuel = k + 1 :=
      Nat.exists_eq_add_one.mpr (by cases b <;> simp [render] at enough <;> omega)
    cases b <;> rfl
  | number n => exact reads_number n
  | string s => exact reads_string s
  | @array items plain ih =>
    intro fuel rest enough ends
    rw [render] at enough ⊢
    rw [List.length_append, List.length_cons] at enough
    obtain ⟨fuel, rfl⟩ : ∃ k, fuel = k + 1 := Nat.exists_eq_add_one.mpr (by omega)
    cases items with
    | nil => rfl
    | cons item items =>
      have read : readItems fuel (renderItems (item :: items) ++ ']' :: rest) = some (item :: items, rest) :=
        readItems_render (by simp) ih (by omega)
      obtain ⟨c, tail, text, solid, other⟩ := renderItems_head items (plain item List.mem_cons_self)
      rw [text, List.cons_append] at read
      simp only [text, List.cons_append, List.append_assoc, List.nil_append]
      rw [readValue_bracket solid other, read]
      rfl
  | @object members plain ih =>
    intro fuel rest enough ends
    rw [ofMembers, ← named, render] at enough ⊢
    rw [List.length_append, List.length_cons] at enough
    obtain ⟨fuel, rfl⟩ : ∃ k, fuel = k + 1 := Nat.exists_eq_add_one.mpr (by omega)
    cases members with
    | nil => rfl
    | cons member members =>
      have read : readMembers fuel (renderMembers (named (member :: members)) ++ '}' :: rest) =
          some (named (member :: members), rest) :=
        readMembers_render (by simp) ih (by omega)
      obtain ⟨tail, text⟩ := renderMembers_head member members
      rw [text, List.cons_append] at read
      simp only [text, List.cons_append, List.append_assoc, List.nil_append]
      rw [readValue_brace, read]
      rfl

/-- The text of a value denotes that value. -/
theorem parse_render (plain : Plain v) : parse (render v) = some v := by
  have read := plain.reads (2 * (render v).length + 2) [] (Nat.le_add_right _ _) (by simp [Ends])
  rw [List.append_nil] at read
  rw [parse, read]
  rfl

/-! ## Control characters -/

theorem renderItems_visible {items : List Json} (visible : ∀ item ∈ items, ∀ c ∈ render item, 0x20 ≤ c.toNat)
    (member : c ∈ renderItems items) : 0x20 ≤ c.toNat := by
  induction items with
  | nil => simp [renderItems] at member
  | cons item items ih =>
    have first := visible item List.mem_cons_self
    cases items with
    | nil =>
      rw [renderItems] at member
      exact first c member
    | cons next items =>
      rw [renderItems, List.mem_append, List.mem_cons] at member
      · rcases member with member | rfl | member
        · exact first c member
        · decide
        · exact ih (fun item among => visible item (List.mem_cons_of_mem _ among)) member
      · simp

theorem renderMembers_visible {members : List (String × Json)}
    (visible : ∀ member ∈ members, ∀ c ∈ render member.2, 0x20 ≤ c.toNat)
    (member : c ∈ renderMembers (named members)) : 0x20 ≤ c.toNat := by
  induction members with
  | nil => simp [named, renderMembers] at member
  | cons first members ih =>
    obtain ⟨key, value⟩ := first
    have own : ∀ c ∈ render value, 0x20 ≤ c.toNat := visible (key, value) List.mem_cons_self
    cases members with
    | nil =>
      rw [renderMembers_last, List.mem_append, List.mem_cons] at member
      rcases member with member | rfl | member
      · exact literal_visible member
      · decide
      · exact own c member
    | cons next members =>
      rw [renderMembers_more, List.mem_append, List.mem_cons, List.mem_append, List.mem_cons] at member
      rcases member with member | rfl | member | rfl | member
      · exact literal_visible member
      · decide
      · exact own c member
      · decide
      · exact ih (fun member among => visible member (List.mem_cons_of_mem _ among)) member

/-- There are no control characters in what is written. -/
theorem Plain.render_visible (plain : Plain v) : ∀ c ∈ render v, 0x20 ≤ c.toNat := by
  induction plain with
  | null => simp [render]
  | bool b => cases b <;> simp [render]
  | number n =>
    intro c member
    have least := (Text.toNat_of_isDigit (Text.isDigit_of_mem member)).1
    omega
  | string s => exact fun c => literal_visible
  | array _ ih =>
    intro c member
    rw [render, List.cons_append, List.mem_cons, List.mem_append, List.mem_singleton] at member
    rcases member with rfl | member | rfl
    · decide
    · exact renderItems_visible ih member
    · decide
  | object _ ih =>
    intro c member
    rw [ofMembers, render, List.cons_append, List.mem_cons, List.mem_append, List.mem_singleton] at member
    rcases member with rfl | member | rfl
    · decide
    · exact renderMembers_visible ih member
    · decide

/-- Members under texts are a record. -/
theorem Record.ofMembers?_named (members : List (String × Json)) :
    ofMembers? (named members) = some ⟨members⟩ := by
  have each : (named members).mapM named? = some members := by
    induction members with
    | nil => rfl
    | cons member rest ih =>
      rw [named, List.map_cons, List.mapM_cons, ← named, ih]
      rfl
  rw [ofMembers?, each]
  rfl

end LaunchTrace.Json
