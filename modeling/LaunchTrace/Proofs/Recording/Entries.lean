import LaunchTrace.Proofs.Except
import LaunchTrace.Proofs.Recording.Settings
import Mathlib.Data.List.Forall2

/-! What the entries of recording settings say, one by one and all together: the last entry of each key holds, and the
first that is wrong decides the error. Blanks around what is written do not count. -/
namespace LaunchTrace.RecordingSettings

open Text (trim trimStart trimEnd isBlankText)

/-- What an entry asks for. -/
inductive Setting where
  | filename (name : String)
  | window (limit : Option Duration)

def Setting.filename? : Setting → Option String
  | filename name => some name
  | window _ => none

/-- The limit that is asked for, which may be none. -/
def Setting.window? : Setting → Option (Option Duration)
  | filename _ => none
  | window limit => some limit

def Draft.set (d : Draft) : Setting → Draft
  | .filename name => { d with filename := some name }
  | .window window => { d with window }

/-- What an entry says or what is wrong with it. Its key ends at the first equals sign. -/
inductive Reads : List Char → Except SettingsError Setting → Prop
  | malformed {entry : List Char} (plain : '=' ∉ entry) : Reads entry (.error (.malformedEntry (String.ofList entry)))
  | filename {key value : List Char} (plain : '=' ∉ key) (known : String.ofList (trim key) = "filename")
      (named : trim value ≠ []) : Reads (key ++ '=' :: value) (.ok (.filename (String.ofList (trim value))))
  | unnamed {key value : List Char} (plain : '=' ∉ key) (known : String.ofList (trim key) = "filename")
      (blank : trim value = []) : Reads (key ++ '=' :: value) (.error .missingFilename)
  | duration {key value : List Char} (plain : '=' ∉ key) (known : String.ofList (trim key) = "duration") :
      Reads (key ++ '=' :: value) ((parseDuration (trim value)).map .window)
  | unknown {key value : List Char} (plain : '=' ∉ key)
      (unknown : String.ofList (trim key) ∉ ["filename", "duration"]) :
      Reads (key ++ '=' :: value) (.error (.unknownKey (String.ofList (trim key))))

/-- Each of the entries is right and asks for what it is listed with. -/
def ReadAll (listed : List (List Char)) (found : List Setting) : Prop :=
  List.Forall₂ (fun entry setting => Reads entry (.ok setting)) listed found

/-- The entry is right. -/
def Sound (entry : List Char) : Prop :=
  ∃ setting, Reads entry (.ok setting)

def NamesFile (entry : List Char) : Prop :=
  ∃ name, Reads entry (.ok (.filename name))

variable {entry : List Char} {listed : List (List Char)} {r other : Except SettingsError Setting} {d after : Draft}
  {e : SettingsError} {found : List Setting}

theorem Reads.total (entry : List Char) : ∃ r, Reads entry r := by
  by_cases parted : '=' ∈ entry
  · obtain ⟨key, value, rfl, plain⟩ := List.eq_append_cons_of_mem parted
    by_cases file : String.ofList (trim key) = "filename"
    · by_cases blank : trim value = []
      · exact ⟨_, .unnamed plain file blank⟩
      · exact ⟨_, .filename plain file blank⟩
    · by_cases limit : String.ofList (trim key) = "duration"
      · exact ⟨_, .duration plain limit⟩
      · exact ⟨_, .unknown plain (by simp [file, limit])⟩
  · exact ⟨_, .malformed parted⟩

theorem add_of_reads (reads : Reads entry r) (d : Draft) : d.add entry = r.map d.set := by
  cases reads with
  | malformed plain =>
    rw [Draft.add, Text.cutAtFirst_of_notMem plain]
    rfl
  | filename plain known named =>
    simp only [Draft.add, Text.cutAtFirst_append plain, known, if_true, if_neg named]
    rfl
  | unnamed plain known blank =>
    simp only [Draft.add, Text.cutAtFirst_append plain, known, if_true, if_pos blank]
    rfl
  | duration plain known =>
    simp only [Draft.add, Text.cutAtFirst_append plain, known]
    rw [if_neg (by decide), if_pos trivial]
    cases parseDuration _ <;> rfl
  | unknown plain unknown =>
    obtain ⟨file, limit⟩ : _ ∧ _ := by simpa using unknown
    simp only [Draft.add, Text.cutAtFirst_append plain, if_neg file, if_neg limit]
    rfl

theorem Reads.unique (reads : Reads entry r) (again : Reads entry other) : other = r := by
  have same : other.map (Draft.set ⟨none, none⟩) = r.map (Draft.set ⟨none, none⟩) :=
    (add_of_reads again _).symm.trans (add_of_reads reads _)
  cases r with
  | error e => exact error_of_map same
  | ok setting =>
    obtain ⟨found, rfl, equal⟩ := ok_of_map same
    cases setting <;> cases found <;> simp [Draft.set] at equal <;> rw [equal]

theorem Reads.not_sound (reads : Reads entry (.error e)) : ¬ Sound entry := by
  rintro ⟨setting, other⟩
  cases reads.unique other

/-! ## One entry after the other -/

theorem foldlM_add_ok : listed.foldlM Draft.add d = .ok after ↔
    ∃ found, ReadAll listed found ∧ after = found.foldl Draft.set d := by
  induction listed generalizing d with
  | nil => simp [ReadAll, pure, Except.pure, eq_comm]
  | cons entry rest ih =>
    obtain ⟨r, reads⟩ := Reads.total entry
    rw [List.foldlM_cons, add_of_reads reads]
    cases r with
    | error e =>
      refine ⟨nofun, ?_⟩
      rintro ⟨_, _ | ⟨other, _⟩, _⟩
      exact absurd ⟨_, other⟩ reads.not_sound
    | ok setting =>
      refine Iff.trans ih ⟨?_, ?_⟩
      · rintro ⟨found, later, rfl⟩
        exact ⟨setting :: found, .cons reads later, rfl⟩
      · rintro ⟨_, _ | ⟨first, later⟩, rfl⟩
        cases reads.unique first
        exact ⟨_, later, rfl⟩

theorem foldlM_add_error : listed.foldlM Draft.add d = .error e ↔
    ∃ before entry behind, listed = before ++ entry :: behind ∧ (∀ x ∈ before, Sound x) ∧ Reads entry (.error e) := by
  induction listed generalizing d with
  | nil => simp [pure, Except.pure]
  | cons entry rest ih =>
    obtain ⟨r, reads⟩ := Reads.total entry
    rw [List.foldlM_cons, add_of_reads reads]
    cases r with
    | error fault =>
      constructor
      · rintro ⟨⟩
        exact ⟨[], entry, rest, rfl, by simp, reads⟩
      · rintro ⟨before, wrong, behind, split, sound, offends⟩
        cases before with
        | nil =>
          obtain ⟨rfl, rfl⟩ := List.cons.inj split
          cases reads.unique offends
          rfl
        | cons x before =>
          obtain ⟨rfl, rfl⟩ := List.cons.inj split
          exact absurd (sound _ List.mem_cons_self) reads.not_sound
    | ok setting =>
      refine Iff.trans ih ⟨?_, ?_⟩
      · rintro ⟨before, wrong, behind, rfl, sound, offends⟩
        exact ⟨entry :: before, wrong, behind, rfl, List.forall_mem_cons.mpr ⟨⟨setting, reads⟩, sound⟩, offends⟩
      · rintro ⟨before, wrong, behind, split, sound, offends⟩
        cases before with
        | nil =>
          obtain ⟨rfl, rfl⟩ := List.cons.inj split
          exact absurd ⟨setting, reads⟩ offends.not_sound
        | cons x before =>
          obtain ⟨rfl, rfl⟩ := List.cons.inj split
          exact ⟨before, wrong, behind, rfl, (List.forall_mem_cons.mp sound).2, offends⟩

/-- Of the settings for one key the last holds. -/
theorem foldl_set (found : List Setting) (d : Draft) : found.foldl Draft.set d =
    ⟨(found.filterMap Setting.filename?).getLast?.or d.filename,
      (found.filterMap Setting.window?).getLast?.getD d.window⟩ := by
  induction found generalizing d with
  | nil => rfl
  | cons setting rest ih =>
    rw [List.foldl_cons, ih]
    cases setting <;> simp [Draft.set, Setting.filename?, Setting.window?, List.getLast?_cons]

theorem sound_iff : (∀ entry ∈ listed, Sound entry) ↔ ∃ found, ReadAll listed found := by
  constructor
  · intro sound
    induction listed with
    | nil => exact ⟨[], .nil⟩
    | cons entry rest ih =>
      obtain ⟨⟨setting, reads⟩, later⟩ := List.forall_mem_cons.mp sound
      obtain ⟨found, read⟩ := ih later
      exact ⟨setting :: found, .cons reads read⟩
  · rintro ⟨found, read⟩
    induction read with
    | nil => exact fun _ => nofun
    | cons reads _ ih => exact List.forall_mem_cons.mpr ⟨⟨_, reads⟩, ih⟩

theorem names_file_iff (read : ReadAll listed found) :
    (∃ entry ∈ listed, NamesFile entry) ↔ found.filterMap Setting.filename? ≠ [] := by
  induction read with
  | nil => simp
  | @cons entry setting rest found reads later ih =>
    simp only [List.mem_cons, exists_eq_or_imp, ih]
    cases setting with
    | filename name =>
      have names : NamesFile entry := ⟨name, reads⟩
      simp [names, Setting.filename?]
    | window limit =>
      have other : ¬ NamesFile entry := by
        rintro ⟨name, names⟩
        cases reads.unique names
      simp [other, Setting.filename?]

/-- What is done with a draft in the end. -/
def Draft.finish (d : Draft) : Except SettingsError RecordingSettings :=
  match d.filename with
  | some filename => .ok ⟨filename, d.window⟩
  | none => .error .missingFilename

theorem parse_eq (s : String) : parse s = ((entries s).foldlM Draft.add ⟨none, none⟩).bind Draft.finish := rfl

theorem parse_eq_ok {s : String} {settings : RecordingSettings} : parse s = .ok settings ↔
    ∃ found, ReadAll (entries s) found ∧
      (found.filterMap Setting.filename?).getLast? = some settings.filename ∧
      settings.window = (found.filterMap Setting.window?).getLast?.getD none := by
  rw [parse_eq]
  constructor
  · intro parsed
    obtain ⟨after, drafted, finished⟩ := ok_of_bind parsed
    obtain ⟨found, read, rfl⟩ := foldlM_add_ok.mp drafted
    refine ⟨found, read, ?_⟩
    rw [foldl_set, Option.or_none] at finished
    unfold Draft.finish at finished
    split at finished
    · rename_i filename named
      obtain rfl := Except.ok.inj finished
      exact ⟨named, rfl⟩
    · cases finished
  · rintro ⟨found, read, named, limited⟩
    rw [foldlM_add_ok.mpr ⟨found, read, rfl⟩, foldl_set, Option.or_none, named, ← limited]
    rfl

theorem parse_eq_error {s : String} : parse s = .error e ↔
    (∃ before entry behind, entries s = before ++ entry :: behind ∧ (∀ x ∈ before, Sound x) ∧
      Reads entry (.error e)) ∨
    (∀ x ∈ entries s, Sound x) ∧ (∀ x ∈ entries s, ¬ NamesFile x) ∧ e = .missingFilename := by
  have unnamed {found : List Setting} (read : ReadAll (entries s) found) :
      found.filterMap Setting.filename? = [] ↔ ∀ x ∈ entries s, ¬ NamesFile x := by
    rw [← not_iff_not, ← ne_eq, ← names_file_iff read]
    simp
  rw [parse_eq]
  constructor
  · intro failed
    cases drafted : (entries s).foldlM Draft.add ⟨none, none⟩ with
    | error fault =>
      rw [drafted] at failed
      obtain rfl := Except.error.inj failed
      exact .inl (foldlM_add_error.mp drafted)
    | ok after =>
      obtain ⟨found, read, rfl⟩ := foldlM_add_ok.mp drafted
      rw [drafted, foldl_set, Option.or_none] at failed
      have finished : Draft.finish _ = .error e := failed
      unfold Draft.finish at finished
      split at finished
      · cases finished
      · rename_i none
        refine .inr ⟨sound_iff.mpr ⟨found, read⟩, (unnamed read).mp (List.getLast?_eq_none_iff.mp none), ?_⟩
        exact (Except.error.inj finished).symm
  · rintro (wrong | ⟨sound, without, rfl⟩)
    · rw [foldlM_add_error.mpr wrong]
      rfl
    · obtain ⟨found, read⟩ := sound_iff.mp sound
      rw [foldlM_add_ok.mpr ⟨found, read, rfl⟩, foldl_set, (unnamed read).mpr without]
      rfl

/-! ## Blanks that do not count -/

/-- Texts with blanks added: around pieces between commas, around the keys and values in them, and as pieces of their
own. -/
inductive Padded : List (List Char) → List (List Char) → Prop
  | nil : Padded [] []
  | blank {piece : List Char} {pieces padded : List (List Char)} (blank : isBlankText piece = true)
      (later : Padded pieces padded) : Padded pieces (piece :: padded)
  | piece (front piece back : List Char) {pieces padded : List (List Char)}
      (before : isBlankText front = true) (behind : isBlankText back = true) (later : Padded pieces padded) :
      Padded (piece :: pieces) ((front ++ piece ++ back) :: padded)
  | setting (front key back first value last : List Char) {pieces padded : List (List Char)} (plain : '=' ∉ key)
      (before : isBlankText front = true) (behind : isBlankText back = true)
      (start : isBlankText first = true) (stop : isBlankText last = true) (later : Padded pieces padded) :
      Padded ((key ++ '=' :: value) :: pieces)
        ((front ++ key ++ back ++ '=' :: (first ++ value ++ last)) :: padded)

def entriesOf (pieces : List (List Char)) : List (List Char) :=
  (pieces.map trim).filter (· ≠ [])

theorem entriesOf_cons_of_blank {piece : List Char} (none : trim piece = []) (pieces : List (List Char)) :
    entriesOf (piece :: pieces) = entriesOf pieces := by
  rw [entriesOf, List.map_cons, List.filter_cons_of_neg (by simp [none]), entriesOf]

theorem entriesOf_cons {piece : List Char} (some : trim piece ≠ []) (pieces : List (List Char)) :
    entriesOf (piece :: pieces) = trim piece :: entriesOf pieces := by
  rw [entriesOf, List.map_cons, List.filter_cons_of_pos (by simp [some]), entriesOf]

/-- The entry that a piece with a key and a value makes is as good as the piece. -/
theorem add_trim {key value : List Char} (plain : '=' ∉ key) (d : Draft) :
    d.add (trim (key ++ '=' :: value)) = d.add (key ++ '=' :: value) := by
  have visible : Text.isBlank '=' = false := by decide
  have short : '=' ∉ trimStart key := fun member => plain ((List.dropWhile_sublist _).mem member)
  rw [Text.trim_around visible, Draft.add, Draft.add, Text.cutAtFirst_append short, Text.cutAtFirst_append plain]
  simp only [Text.trim_trimStart, Text.trim_trimEnd]

theorem notMem_pad {key front back : List Char} (plain : '=' ∉ key) (before : isBlankText front = true)
    (behind : isBlankText back = true) : '=' ∉ front ++ key ++ back := by
  have visible : Text.isBlank '=' = false := by decide
  simp [plain, Text.notMem_of_blank visible before, Text.notMem_of_blank visible behind]

theorem add_padded {key value front back first last : List Char} (plain : '=' ∉ key)
    (before : isBlankText front = true) (behind : isBlankText back = true)
    (start : isBlankText first = true) (stop : isBlankText last = true) (d : Draft) :
    d.add (front ++ key ++ back ++ '=' :: (first ++ value ++ last)) = d.add (key ++ '=' :: value) := by
  rw [Draft.add, Draft.add, Text.cutAtFirst_append (notMem_pad plain before behind), Text.cutAtFirst_append plain]
  simp only [Text.trim_pad before behind, Text.trim_pad start stop]

theorem trim_ne_nil {key value : List Char} : trim (key ++ '=' :: value) ≠ [] := by
  rw [Text.trim_around (by decide)]
  exact List.append_ne_nil_of_right_ne_nil _ (List.cons_ne_nil _ _)

/-- Each piece that counts is added as before. -/
theorem foldlM_padded {pieces padded : List (List Char)} (loose : Padded pieces padded) (d : Draft) :
    (entriesOf padded).foldlM Draft.add d = (entriesOf pieces).foldlM Draft.add d := by
  induction loose generalizing d with
  | nil => rfl
  | blank blank _ ih => rw [entriesOf_cons_of_blank (Text.trim_of_blank blank), ih]
  | piece front piece back before behind _ ih =>
    have same := Text.trim_pad before behind piece
    by_cases none : trim piece = []
    · rw [entriesOf_cons_of_blank none, entriesOf_cons_of_blank (same.trans none), ih]
    · rw [entriesOf_cons none, entriesOf_cons (same.symm ▸ none), same]
      simp only [List.foldlM_cons, ih]
  | setting front key back first value last plain before behind start stop _ ih =>
    have whole := notMem_pad plain before behind
    rw [entriesOf_cons trim_ne_nil, entriesOf_cons trim_ne_nil]
    simp only [List.foldlM_cons, add_trim whole, add_trim plain, add_padded plain before behind start stop, ih]

theorem parse_padded {s t : String} (loose : Padded (Text.pieces ',' s.toList) (Text.pieces ',' t.toList)) :
    parse t = parse s := by
  rw [parse_eq, parse_eq]
  exact congrArg (Except.bind · Draft.finish) (foldlM_padded loose _)

/-- Settings are read exactly where every entry is right and one of them names a file, and then the last entry of each
key holds. Otherwise the error is that of the first entry that is wrong, or else that there is no file name. Added
blanks and empty pieces change nothing. -/
theorem parse_entries (s : String) :
    ((∃ settings, parse s = .ok settings) ↔
        (∀ entry ∈ entries s, Sound entry) ∧ ∃ entry ∈ entries s, NamesFile entry) ∧
      (∀ settings, parse s = .ok settings ↔ ∃ found, ReadAll (entries s) found ∧
        (found.filterMap Setting.filename?).getLast? = some settings.filename ∧
        settings.window = (found.filterMap Setting.window?).getLast?.getD none) ∧
      (∀ e, parse s = .error e ↔
        (∃ before entry behind, entries s = before ++ entry :: behind ∧ (∀ x ∈ before, Sound x) ∧
          Reads entry (.error e)) ∨
        (∀ x ∈ entries s, Sound x) ∧ (∀ x ∈ entries s, ¬ NamesFile x) ∧ e = .missingFilename) ∧
      ∀ t, Padded (Text.pieces ',' s.toList) (Text.pieces ',' t.toList) → parse t = parse s := by
  refine ⟨?_, fun settings => parse_eq_ok, fun e => parse_eq_error, fun t => parse_padded⟩
  constructor
  · rintro ⟨settings, parsed⟩
    obtain ⟨found, read, named, _⟩ := parse_eq_ok.mp parsed
    refine ⟨sound_iff.mpr ⟨found, read⟩, (names_file_iff read).mpr ?_⟩
    rintro none
    rw [none] at named
    cases named
  · rintro ⟨sound, file⟩
    obtain ⟨found, read⟩ := sound_iff.mp sound
    have some := (names_file_iff read).mp file
    exact ⟨⟨_, _⟩, parse_eq_ok.mpr ⟨found, read, List.getLast?_eq_getLast_of_ne_nil some, rfl⟩⟩

/-- The name holds an equals sign of its own, and the zero at the end lifts the limit before it. -/
theorem spaced_entries :
    let plain := "filename=a=b,duration=5s,duration=0"
    let spaced := " filename\t= a=b ,,duration=5s, \n,duration =0\u3000"
    Padded (Text.pieces ',' plain.toList) (Text.pieces ',' spaced.toList) ∧
      parse spaced = .ok ⟨"a=b", none⟩ ∧ parse plain = .ok ⟨"a=b", none⟩ := by
  intro plain spaced
  have loose : Padded (Text.pieces ',' plain.toList) (Text.pieces ',' spaced.toList) := by
    have tight : Text.pieces ',' plain.toList =
        ["filename=a=b".toList, "duration=5s".toList, "duration=0".toList] := by decide +kernel
    have wide : Text.pieces ',' spaced.toList =
        [" filename\t= a=b ".toList, [], "duration=5s".toList, " \n".toList, "duration =0\u3000".toList] := by
      decide +kernel
    rw [tight, wide]
    have file : '=' ∉ "filename".toList := by decide
    have limit : '=' ∉ "duration".toList := by decide
    have tab : isBlankText ['\t'] = true := by decide
    have line : isBlankText " \n".toList = true := by decide
    have wider : isBlankText ['\u3000'] = true := by decide
    refine .setting [' '] "filename".toList ['\t'] [' '] "a=b".toList [' '] file rfl tab rfl rfl (.blank rfl ?_)
    refine .piece [] "duration=5s".toList [] rfl rfl (.blank line ?_)
    exact .setting [] "duration".toList [' '] [] "0".toList ['\u3000'] limit rfl rfl rfl wider .nil
  obtain ⟨_, _, _, same⟩ := parse_entries plain
  have settings : parse plain = .ok ⟨"a=b", none⟩ := by decide +kernel
  exact ⟨loose, (same spaced loose).trans settings, settings⟩

end LaunchTrace.RecordingSettings
