import Stackwright.Proofs.Decode.Forms

/-!
# Lists of environment files

Environment files are given one or many, each by its path or as a record, and below a
choice a record may be written as the list of its fields.  So a list is first tried as
one entry, and only then as a list of entries.  A list of one path is a record that
leaves its second field out: the file need not exist, although it must if the path is
given alone.  The empty list is a record that leaves out the path as well, and gives a
file without one.  Every longer list fails as a record, because a path does not say
whether a file must exist, and gives one required file for each path.

Main results:

- Theorem `envFiles_textList`: the files that a list of paths gives.
- Theorem `envFiles_required_iff`: all of them are required, and none is added, exactly
  if there are two paths or more.
-/

namespace Stackwright
namespace Decode

open Document (Tree)

variable {place : Place}

/-- The shapes of one environment file. -/
def envFileShapes : List (Reader EnvFile) :=
  [.map (fun path => { path, required := true }) .text, record envFileFields {}]

/-- A file that must exist. -/
def requiredFile (path : String) : EnvFile where
  path := path
  required := true

/-- The files that a list of paths gives. -/
def listedFiles : List String → List EnvFile
  | [] => [{}]
  | [path] => [{ path }]
  | paths => paths.map requiredFile

/-! ## One entry or many -/

theorem envFiles_of_entry {t : Tree} {file : EnvFile} (hnull : t.isNull = false)
    (htag : t.hasTag = false) (h : Reader.first envFileShapes t = .ok file) :
    envFiles place t = .ok [file] := by
  have hentry : (Reader.oneOf envFileShapes).map ([·]) .buffered t = .ok [file] := by
    rw [Reader.map, Reader.oneOf, htag, if_neg Bool.false_ne_true, h]
    rfl
  exact Reader.optional_oneOf_getD hnull htag (Reader.first_of_ok hentry)

/-- A list that is no entry is read item by item. -/
theorem envFiles_of_items {items : List Tree} {files : List EnvFile} {fault : Fault}
    (htag : (Tree.sequence items).hasTag = false)
    (hentry : Reader.first envFileShapes (.sequence items) = .error fault)
    (h : items.mapM (Reader.oneOf envFileShapes .buffered) = .ok files) :
    envFiles place (.sequence items) = .ok files := by
  have hfails : (Reader.oneOf envFileShapes).map ([·]) .buffered (.sequence items)
      = .error fault := by
    rw [Reader.map, Reader.oneOf, htag, if_neg Bool.false_ne_true, hentry]
    rfl
  refine Reader.optional_oneOf_getD rfl htag ?_
  refine (Reader.first_of_error hfails).trans (Reader.first_of_ok ?_)
  rw [← h]
  exact Reader.list_sequence (.oneOf envFileShapes) .buffered items

/-! ## Paths -/

/-- A path that is given alone is a required file. -/
theorem envFiles_text (place : Place) (path : String) :
    envFiles place (.text path) = .ok [requiredFile path] :=
  envFiles_of_entry rfl rfl rfl

/-- A list of paths is one entry up to its second path, and from there on a list of entries. -/
theorem envFiles_textList (place : Place) (paths : List String) :
    envFiles place (textList paths) = .ok (listedFiles paths) := by
  match paths with
  | [] => exact envFiles_of_entry rfl rfl rfl
  | [path] => exact envFiles_of_entry rfl rfl rfl
  | first :: second :: rest =>
      have hitems : ((first :: second :: rest).map Tree.text).mapM
          (Reader.oneOf envFileShapes .buffered)
            = .ok ((first :: second :: rest).map requiredFile) := by
        rw [List.mapM_map]
        exact mapM_eq_ok fun path _ => rfl
      exact envFiles_of_items (hasTag_textList _) rfl hitems

theorem listedFiles_eq_iff (paths : List String) :
    listedFiles paths = paths.map requiredFile ↔ 2 ≤ paths.length := by
  match paths with
  | [] => simp [listedFiles]
  | [path] => simp [listedFiles, requiredFile]
  | first :: second :: rest => simp [listedFiles]

/-- A list of paths gives one required file for each of them, as each path gives alone, exactly
if there are two paths or more.  One path in a list gives a file that need not exist, and the
empty list one without a path. -/
theorem envFiles_required_iff (place : Place) :
    (∀ path, envFiles place (.text path) = .ok [requiredFile path]) ∧
      (∀ paths, envFiles place (textList paths) = .ok (paths.map requiredFile)
        ↔ 2 ≤ paths.length) ∧
      (∀ path, envFiles place (textList [path]) = .ok [{ path, required := false }]) ∧
      envFiles place (textList []) = .ok [{ path := "", required := false }] := by
  refine ⟨envFiles_text place, fun paths => ?_, fun path => envFiles_textList place [path],
    envFiles_textList place []⟩
  rw [envFiles_textList, Except.ok.injEq]
  exact listedFiles_eq_iff paths

/-- A path is required alone and not in a list of its own. -/
theorem envFiles_required_iff_ownList :
    envFiles .direct (.text "web.env") = .ok [requiredFile "web.env"] ∧
      envFiles .direct (textList ["web.env"]) ≠ .ok (["web.env"].map requiredFile) := by
  refine ⟨envFiles_text .direct "web.env", ?_⟩
  rw [envFiles_textList]
  decide

end Decode
end Stackwright
