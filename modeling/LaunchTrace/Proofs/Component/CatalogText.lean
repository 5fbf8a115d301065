import LaunchTrace.Component.Catalog
import LaunchTrace.Proofs.Json.Fields
import LaunchTrace.Proofs.Text.Utf8

/-! A catalog in a file. A field that says nothing is not written, and one that is missing is read as saying nothing, so
that a catalog is read back as it was written. Texts that are there and empty do say something. -/
namespace LaunchTrace

namespace CatalogEntry

variable {e : CatalogEntry}

/-- The fields of an entry. Those that say nothing have no value. -/
def fields (e : CatalogEntry) : List (String × Option Json) := [
  ("type_name", some (.ofString e.typeName)),
  ("kind", some (.ofString (kindText e.kind))),
  ("name", e.name.map .ofString),
  ("scope", e.scope.map .ofString),
  ("on_property", e.onProperty.map .ofString),
  ("profiles", if e.profiles = [] then none else some (.ofStrings e.profiles))]

theorem fields_distinct (e : CatalogEntry) : (e.fields.map (·.1)).Nodup := by
  simp only [fields, List.map_cons, List.map_nil]
  decide

theorem toJson_eq (e : CatalogEntry) : e.toJson = .ofMembers (Json.Record.present e.fields) := by
  have optional (key : String) (value : Option String) :
      optionalMember key value = ((value.map Json.ofString).map (key, ·)).toList := by
    cases value <;> rfl
  have profiles : (if e.profiles = [] then [] else [("profiles", Json.ofStrings e.profiles)]) =
      ((if e.profiles = [] then none else some (Json.ofStrings e.profiles)).map ("profiles", ·)).toList := by
    split <;> rfl
  simp only [toJson, optional, profiles, fields, Json.Record.present_cons, Json.Record.present_nil, List.append_nil,
    List.append_assoc]
  rfl

/-- A field that was left out is read as what it would have said. -/
theorem ofFields?_fields (e : CatalogEntry) :
    ofFields? (.ofString e.typeName) (some (.ofString (kindText e.kind))) (e.name.map .ofString)
      (e.scope.map .ofString) (e.onProperty.map .ofString)
      (if e.profiles = [] then none else some (.ofStrings e.profiles)) = some e := by
  have kind : defaulted .component kind? (some (.ofString (kindText e.kind))) = some e.kind := by
    cases e.kind <;> rfl
  have optional (value : Option String) : defaulted none optionalText? (value.map .ofString) = some value := by
    cases value <;> rfl
  have profiles : defaulted [] Json.texts? (if e.profiles = [] then none else some (.ofStrings e.profiles)) =
      some e.profiles := by
    split
    · rename_i none
      exact congrArg some none.symm
    · exact Json.texts?_ofStrings e.profiles
  rw [ofFields?, kind, optional, optional, optional, profiles]
  rfl

theorem ofJson?_toJson (e : CatalogEntry) : ofJson? e.toJson = some e := by
  have typeName : Json.Record.required? ⟨Json.Record.present e.fields⟩ "type_name" = some (.ofString e.typeName) :=
    Json.Record.required?_present e.fields_distinct (by simp [fields])
  have optional (key : String) (value : Option Json) (member : (key, value) ∈ e.fields) :
      Json.Record.optional? ⟨Json.Record.present e.fields⟩ key = some value :=
    Json.Record.optional?_present e.fields_distinct member
  have kind := optional "kind" (some (.ofString (kindText e.kind))) (by simp [fields])
  have name := optional "name" (e.name.map .ofString) (by simp [fields])
  have scope := optional "scope" (e.scope.map .ofString) (by simp [fields])
  have onProperty := optional "on_property" (e.onProperty.map .ofString) (by simp [fields])
  have profiles := optional "profiles" (if e.profiles = [] then none else some (.ofStrings e.profiles))
    (by simp [fields])
  rw [toJson_eq, Json.ofMembers, ← Json.named, ofJson?, Json.Record.ofMembers?_named]
  simp only [Option.bind_eq_bind, Option.bind_some, typeName, kind, name, scope, onProperty, profiles]
  exact e.ofFields?_fields

theorem toJson_plain (e : CatalogEntry) : e.toJson.Plain := by
  rw [toJson_eq]
  apply Json.Plain.object
  rintro ⟨key, value⟩ member
  have among := Json.Record.mem_present.mp member
  have text {given : Option String} (same : some value = given.map .ofString) : value.Plain := by
    obtain ⟨s, -, rfl⟩ := Option.map_eq_some_iff.mp same.symm
    exact .string s
  simp only [fields, List.mem_cons, Prod.mk.injEq, Option.some.injEq, List.not_mem_nil, or_false] at among
  rcases among with ⟨-, rfl⟩ | ⟨-, rfl⟩ | ⟨-, name⟩ | ⟨-, scope⟩ | ⟨-, property⟩ | ⟨-, profiles⟩
  · exact .string _
  · exact .string _
  · exact text name
  · exact text scope
  · exact text property
  · split at profiles
    · contradiction
    · obtain rfl := Option.some.inj profiles
      exact .ofStrings _

/-- Which keys an entry is written with. A text that is absent has none, and neither has a list without profiles. -/
structure Terse (e : CatalogEntry) : Prop where
  always : some "type_name" ∈ e.toJson.keys ∧ some "kind" ∈ e.toJson.keys
  name : some "name" ∈ e.toJson.keys ↔ e.name ≠ none
  scope : some "scope" ∈ e.toJson.keys ↔ e.scope ≠ none
  onProperty : some "on_property" ∈ e.toJson.keys ↔ e.onProperty ≠ none
  profiles : some "profiles" ∈ e.toJson.keys ↔ e.profiles ≠ []

theorem terse (e : CatalogEntry) : e.Terse := by
  have keys (key : String) (value : Option Json) (member : (key, value) ∈ e.fields) :
      some key ∈ e.toJson.keys ↔ value ≠ none := by
    rw [toJson_eq]
    exact Json.Record.mem_keys_present e.fields_distinct member
  have text (key : String) (value : Option String) (member : (key, value.map .ofString) ∈ e.fields) :
      some key ∈ e.toJson.keys ↔ value ≠ none := by
    rw [keys key _ member, ne_eq, Option.map_eq_none_iff]
  constructor
  · constructor
    · exact (keys "type_name" (some (.ofString e.typeName)) (by simp [fields])).mpr (by simp)
    · exact (keys "kind" (some (.ofString (kindText e.kind))) (by simp [fields])).mpr (by simp)
  · exact text "name" e.name (by simp [fields])
  · exact text "scope" e.scope (by simp [fields])
  · exact text "on_property" e.onProperty (by simp [fields])
  · rw [keys "profiles" (if e.profiles = [] then none else some (.ofStrings e.profiles)) (by simp [fields])]
    simp

end CatalogEntry

namespace Catalog

variable {c : Catalog}

/-- The bytes of a file that holds the catalog. -/
def written (c : Catalog) : Bytes :=
  Text.Utf8.encode c.toJson.render

/-- A file's content read as a catalog, and the catalog written. -/
def rewritten (content : Bytes) : Except ContextError Bytes :=
  (ofBytes content).map written

theorem toJson_plain (c : Catalog) : c.toJson.Plain := by
  apply Json.Plain.object
  intro member among
  obtain rfl := List.mem_singleton.mp among
  apply Json.Plain.array
  intro item member
  obtain ⟨e, -, rfl⟩ := List.mem_map.mp member
  exact e.toJson_plain

theorem ofJson?_toJson (c : Catalog) : ofJson? c.toJson = some c := by
  have entries : ofEntries? (.array (c.components.map (·.toJson))) = some c := by
    rw [ofEntries?, Json.mapM_map_of_reads CatalogEntry.ofJson?_toJson]
    rfl
  have components : Json.Record.required? ⟨[("components", .array (c.components.map (·.toJson)))]⟩ "components" =
      some (.array (c.components.map (·.toJson))) := rfl
  rw [toJson, Json.ofMembers, ← Json.named, ofJson?, Json.Record.ofMembers?_named]
  simp only [Option.bind_eq_bind, Option.bind_some, components]
  exact entries

theorem ofBytes_written (c : Catalog) : ofBytes c.written = .ok c := by
  simp only [ofBytes, written, Text.Utf8.decode_encode, Json.parse_render c.toJson_plain, Option.bind_some,
    ofJson?_toJson]

theorem rewritten_of_ok {content : Bytes} (read : ofBytes content = .ok c) : rewritten content = .ok c.written :=
  congrArg (Except.map written) read

/-- A catalog is read from a file with its text as it is, for all that the text leaves out. So a file that can be read
at all may be rewritten, and holds the same catalog then; rewriting it once more changes nothing. -/
theorem read_written (c : Catalog) :
    (∀ e ∈ c.components, e.Terse) ∧
      (∀ (fs : FileSystem) path, fs.read path = .ok c.written → read fs path = .ok c) ∧
      ∀ fs path, read fs path = .ok c → ∃ content again, fs.read path = .ok content ∧
        rewritten content = .ok again ∧ ofBytes again = .ok c ∧ rewritten again = .ok again := by
  refine ⟨fun e _ => e.terse, ?_, ?_⟩
  · intro fs path stored
    rw [read, stored]
    exact c.ofBytes_written
  · intro fs path found
    cases stored : fs.read path with
    | error e =>
      rw [read, stored] at found
      contradiction
    | ok content =>
      rw [read, stored] at found
      exact ⟨content, c.written, rfl, rewritten_of_ok found, c.ofBytes_written, rewritten_of_ok c.ofBytes_written⟩

/-- Entries that say all there is to say, some of it with empty texts, and one that says next to nothing. -/
def shelf : Catalog := ⟨[
  ⟨"app::\"Cart\"\n", .configuration, some "", some "", some "", ["", "prod"]⟩,
  ⟨"", .component, none, none, none, []⟩]⟩

/-- The same entries as somebody has spelled them by hand. -/
def handmade : Bytes :=
  let cart := "[\"app::\\u0022Cart\\\"\\n\", \x7b\"configuration\":null\x7d, \"\", \"\", \"\", [\"\",\"prod\"]]"
  let bare := "\x7b\"scope\":null, \"type_name\":\"\", \"x\":[1e2]\x7d"
  Text.Utf8.encode (" [ [" ++ cart ++ ", " ++ bare ++ "] ]\n").toList

/-- A working directory with these two files. -/
def shelved : FileSystem :=
  ⟨[], [([(Path.ofText "a.json").bytes], .file shelf.written), ([(Path.ofText "b.json").bytes], .file handmade)]⟩

theorem shelf_written :
    (∀ e ∈ shelf.components, e.Terse) ∧ read shelved (.ofText "a.json") = .ok shelf ∧
      ∃ content again, shelved.read (.ofText "b.json") = .ok content ∧ rewritten content = .ok again ∧
        ofBytes again = .ok shelf ∧ rewritten again = .ok again := by
  obtain ⟨terse, stored, found⟩ := read_written shelf
  have written : shelved.read (.ofText "a.json") = .ok shelf.written := by decide +kernel
  have spelled : read shelved (.ofText "b.json") = .ok shelf := by decide +kernel
  exact ⟨terse, stored _ _ written, found _ _ spelled⟩

end Catalog
end LaunchTrace
