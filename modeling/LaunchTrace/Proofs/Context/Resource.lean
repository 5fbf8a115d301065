import LaunchTrace.Context.Web
import LaunchTrace.Proofs.Files.Way
import LaunchTrace.Proofs.Text.Utf8

/-! Where the files of resources lie. The leading slashes of a path do not take it out of the directory that resources
are kept in, but two dots do. -/
namespace LaunchTrace

open Text.Utf8 (encode encodeChar)

namespace Path

variable {base relative s : List Char}

theorem encode_slash (front back : List Char) :
    encode (front ++ '/' :: back) = encode front ++ slash :: encode back := by
  rw [Text.Utf8.encode_append]
  rfl

theorem isAbsolute_encode : isAbsolute ⟨encode s⟩ = true ↔ s.head? = some '/' := by
  cases s with
  | nil => decide
  | cons c rest =>
    have whole : encode (c :: rest) = encodeChar c ++ encode rest := List.flatMap_cons
    rw [isAbsolute, whole, decide_eq_true_eq, List.head?_cons, Option.some.injEq]
    constructor
    · intro first
      have some : encodeChar c ≠ [] := by
        unfold encodeChar
        dsimp only
        split_ifs <;> exact List.cons_ne_nil _ _
      obtain ⟨b, more, bytes⟩ := List.exists_cons_of_ne_nil some
      rw [bytes, List.cons_append, List.head?_cons, Option.some.injEq] at first
      have member : slash ∈ encodeChar c := by
        rw [bytes, first]
        exact List.mem_cons_self
      exact Char.toNat_inj.mp ((Text.Utf8.mem_encodeChar (by decide)).mp member)
    · rintro rfl
      rfl

theorem way_joinPath (base relative : List Char) :
    way ⟨encode (joinPath base relative)⟩ = (way ⟨encode base⟩).andThen (way ⟨encode relative⟩) := by
  unfold joinPath
  split
  · rename_i ready
    obtain rfl | ended := ready
    · exact (Way.here_andThen _).symm
    · obtain ⟨front, rfl⟩ := List.getLast?_eq_some_iff.mp ended
      have bare : way ⟨encode (front ++ ['/'])⟩ = way ⟨encode front⟩ := by
        rw [encode_slash, way_slash]
        exact Way.andThen_here _
      rw [List.append_assoc, List.singleton_append, encode_slash, way_slash, bare]
  · rw [encode_slash, way_slash]

theorem isAbsolute_joinPath (relation : relative.head? ≠ some '/') :
    isAbsolute ⟨encode (joinPath base relative)⟩ = isAbsolute ⟨encode base⟩ := by
  rw [Bool.eq_iff_iff, isAbsolute_encode, isAbsolute_encode]
  unfold joinPath
  cases base with
  | nil => simpa using relation
  | cons c rest => split <;> rfl

/-- Slashes in front lead nowhere. -/
theorem way_dropSlashes (s : List Char) : way ⟨encode (s.dropWhile (· = '/'))⟩ = way ⟨encode s⟩ := by
  induction s with
  | nil => rfl
  | cons c rest ih =>
    by_cases first : c = '/'
    · subst first
      rw [List.dropWhile_cons_of_pos (by simp), ih]
      exact ((way_slash [] _).trans (Way.here_andThen _)).symm
    · rw [List.dropWhile_cons_of_neg (by simpa using first)]

theorem dropSlashes_spec (s : List Char) : ∃ n, s = List.replicate n '/' ++ s.dropWhile (· = '/') ∧
    (s.dropWhile (· = '/')).head? ≠ some '/' := by
  induction s with
  | nil => exact ⟨0, rfl, nofun⟩
  | cons c rest ih =>
    by_cases first : c = '/'
    · obtain ⟨n, split, relative⟩ := ih
      subst first
      rw [List.dropWhile_cons_of_pos (by simp)]
      exact ⟨n + 1, congrArg ('/' :: ·) split, relative⟩
    · rw [List.dropWhile_cons_of_neg (by simpa using first)]
      exact ⟨0, rfl, by simpa using first⟩

theorem ofText_ofList (s : List Char) : ofText (String.ofList s) = ⟨encode s⟩ := by
  rw [ofText, String.toList_ofList]

end Path

namespace WebContext

variable {w : WebContext} {servlet : ServletContext}

/-- A resource is found at its path with one slash in front. Its file lies in the directory of resources exactly if the
names of the path, two dots among them, lead up from that directory to nowhere, or back into it by the names that it
was left by. -/
theorem resource_inside (served : w.servlet = some servlet) (path : String) :
    ∃ r, w.resource path = .ok r ∧
      (∃ slashes rest, path.toList = List.replicate slashes '/' ++ rest ∧ r.path.toList = '/' :: rest ∧
        rest.head? ≠ some '/') ∧
      ∀ base, servlet.resourceBase = some base → Path.parent ∉ (Path.ofText base).names →
        ∃ file, r.file = some file ∧
          ((Path.ofText path).way.up = 0 → (Path.ofText file).Inside (.ofText base)) ∧
          ((Path.ofText file).Inside (.ofText base) ↔
            let down := (Path.ofText base).way.down
            let way := (Path.ofText path).way
            ((Path.ofText base).isAbsolute = true ∨ way.up ≤ down.length) ∧
              down.drop (down.length - way.up) <+: way.down) := by
  obtain ⟨slashes, split, relative⟩ := Path.dropSlashes_spec path.toList
  refine ⟨servlet.resource path, by rw [resource, served], ⟨slashes, _, split, String.toList_ofList, relative⟩, ?_⟩
  intro base kept plain
  have file : (servlet.resource path).file =
      some (String.ofList (joinPath base.toList (path.toList.dropWhile (· = '/')))) := by
    rw [ServletContext.resource, kept, Option.map_some]
  have inside := Path.inside_iff (Path.isAbsolute_joinPath relative) plain (Path.way_joinPath base.toList _)
  rw [Path.way_dropSlashes] at inside
  rw [← Path.ofText_ofList] at inside
  refine ⟨_, file, fun level => inside.mpr ?_, inside⟩
  have whole : (Path.way ⟨encode path.toList⟩).up = 0 := level
  rw [whole, Nat.sub_zero, List.drop_length]
  exact ⟨.inr (Nat.zero_le _), List.nil_prefix⟩

/-- A way that never leaves, one that comes back by the right names, and one that comes back by others. -/
theorem resource_returns :
    let servlet : ServletContext := ⟨"/shop", .empty, some "/srv/./www/"⟩
    let w : WebContext := ⟨.create "shop" .empty, some servlet⟩
    let leads (path : String) (within : Bool) : Prop := ∃ r file, w.resource path = .ok r ∧ r.file = some file ∧
      decide ((Path.ofText file).Inside (.ofText "/srv/./www/")) = within
    w.servlet = some servlet ∧ Path.parent ∉ (Path.ofText "/srv/./www/").names ∧
      leads "//static/../app.js" true ∧ leads "../../srv/www/app.js" true ∧ leads "../../srv/other/app.js" false := by
  intro servlet w leads
  have plain : Path.parent ∉ (Path.ofText "/srv/./www/").names := by decide +kernel
  have known (path : String) := resource_inside (show w.servlet = some servlet from rfl) path
  refine ⟨rfl, plain, ?_, ?_, ?_⟩
  · obtain ⟨r, found, _, kept⟩ := known "//static/../app.js"
    obtain ⟨file, named, stays, _⟩ := kept _ rfl plain
    exact ⟨r, file, found, named, decide_eq_true (stays (by decide +kernel))⟩
  · obtain ⟨r, found, _, kept⟩ := known "../../srv/www/app.js"
    obtain ⟨file, named, _, inside⟩ := kept _ rfl plain
    exact ⟨r, file, found, named, decide_eq_true (inside.mpr (by decide +kernel))⟩
  · obtain ⟨r, found, _, kept⟩ := known "../../srv/other/app.js"
    obtain ⟨file, named, _, inside⟩ := kept _ rfl plain
    exact ⟨r, file, found, named, decide_eq_false (inside.not.mpr (by decide +kernel))⟩

/-- The way back is by other names than the way out. -/
theorem resource_escapes : ¬ ∀ (w : WebContext) (servlet : ServletContext) (base path : String),
    w.servlet = some servlet → servlet.resourceBase = some base → Path.parent ∉ (Path.ofText base).names →
    ∀ r, w.resource path = .ok r →
      (∃ rest, r.path.toList = '/' :: rest ∧ rest.head? ≠ some '/') ∧
        ∀ file, r.file = some file → (Path.ofText file).Inside (.ofText base) := by
  intro claimed
  let servlet : ServletContext := ⟨"/shop", .empty, some "/srv/www"⟩
  obtain ⟨_, contained⟩ := claimed ⟨.create "shop" .empty, some servlet⟩ servlet "/srv/www" "../secret" rfl rfl
    (by decide +kernel) _ rfl
  exact absurd (contained _ rfl) (by decide +kernel)

end WebContext
end LaunchTrace
