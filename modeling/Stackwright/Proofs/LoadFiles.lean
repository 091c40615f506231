import Stackwright.Load
import Stackwright.Proofs.Decode.DeclaredName
import Stackwright.Proofs.Document.Merging
import Stackwright.Proofs.Document.Reading

/-!
# Loading a file is loading its text

A project that is loaded from one descriptor file, given once or several times in a
row, is the project that the text of the file describes.  Merging starts from nothing
and a document is not changed by merging it over itself, so the merge is the document
of the text; without a dotenv file only the environment is looked up.  The two differ
in the name of the project, which a file gets from more places, and in how errors
call the descriptor.

Main results:

- Theorem `mergeFiles_copies`: a file merged over itself gives its own document.
- Theorem `load_copies`: loading a file gives what loading its text gives.
-/

namespace Stackwright

open Document (Tree)

/-- Two errors with the same cause: they are equal, or they say the same of descriptors that
are called differently. -/
inductive Error.SameCause : Error → Error → Prop
  | same (e : Error) : SameCause e e
  | descriptor (path path' : String) (fault : DescriptorFault) :
      SameCause (.descriptor path fault) (.descriptor path' fault)

/-- Without a dotenv file only the environment is looked up. -/
theorem lookupIn_empty (environment : Template.Lookup) : lookupIn environment {} = environment := by
  funext name
  have hnone : ({} : Dict String).get? name = none := rfl
  rw [lookupIn, hnone]
  cases environment name <;> rfl

theorem Project.readTree_eq_ok_iff {label text : String} {tree : Tree} :
    Project.readTree label text = .ok tree ↔ Tree.read text = .ok tree := by
  unfold Project.readTree
  cases Tree.read text <;> simp

namespace FileTree

variable {t : FileTree} {path text : String}

/-- One more file is merged over the document so far. -/
theorem mergeFiles_cons (hread : t.readText path = .ok text) (base : Tree) (rest : List String) :
    t.mergeFiles base (path :: rest)
      = Project.readTree path text >>= fun overlay => t.mergeFiles (base.merge overlay) rest := by
  have hfile : t.readFile path = .ok text := by
    rw [readFile, hread]
    rfl
  rw [mergeFiles, hfile]
  rfl

/-- A file that is merged over its own document any number of times does not change it. -/
theorem mergeFiles_replicate (hread : t.readText path = .ok text) {tree : Tree}
    (htree : Project.readTree path text = .ok tree) (n : Nat) :
    t.mergeFiles tree (List.replicate n path) = .ok tree := by
  have hself : tree.merge tree = tree :=
    Tree.merge_self (Document.distinctKeys_of_read (Project.readTree_eq_ok_iff.1 htree))
  induction n with
  | zero => rfl
  | succ n ih =>
      rw [List.replicate_succ, mergeFiles_cons hread, htree]
      simp only [bind, Except.bind, hself, ih]

/-- Merging copies of a file over nothing reads its text. -/
theorem mergeFiles_copies (hread : t.readText path = .ok text) (again : Nat) :
    t.mergeFiles .null (List.replicate (again + 1) path) = Project.readTree path text := by
  rw [List.replicate_succ, mergeFiles_cons hread]
  cases htree : Project.readTree path text with
  | error e => rfl
  | ok tree =>
      simp only [bind, Except.bind, Tree.null_merge]
      exact mergeFiles_replicate hread htree again

end FileTree

/-- The name that a text declares, with its variables expanded. -/
def declaredIn (environment : Template.Lookup) (text : String) : String :=
  match Tree.read text with
  | .error _ => ""
  | .ok tree =>
      match tree.expand environment with
      | .error _ => ""
      | .ok expanded => declaredName expanded

namespace Project

/-- Loading copies of a file reads the document of its text and gives the project a name. -/
theorem load_copies_eq {t : FileTree} (environment : Template.Lookup) {path text : String}
    (hread : t.readText path = .ok text)
    (hdotenv : t.isFile (Path.sibling path dotenvName) = false) (again : Nat)
    (projectName : Option String) :
    load t environment { files := List.replicate (again + 1) path, projectName }
      = readTree path text >>= fun tree =>
          (ofTree environment (sourceLabel (List.replicate (again + 1) path)) tree).map fun p =>
            { p with name := resolveName t projectName p.name path } := by
  have hempty : t.dotenvFor path none = .ok {} := by
    rw [FileTree.dotenvFor]
    simp only [hdotenv, Bool.false_eq_true, if_false]
  have hmerge := FileTree.mergeFiles_copies hread again
  rw [List.replicate_succ] at hmerge ⊢
  rw [load]
  simp only [hmerge, hempty]
  cases readTree path text with
  | error e => rfl
  | ok tree =>
      simp only [bind, Except.bind, lookupIn_empty]
      cases ofTree environment (sourceLabel (path :: List.replicate again path)) tree <;> rfl

/-- A document describes the same project under two labels, or fails for the same cause. -/
theorem ofTree_cases (lookup : Template.Lookup) (label label' : String) (tree : Tree) :
    (∃ expanded p, tree.expand lookup = .ok expanded ∧ p.name = declaredName expanded
        ∧ ofTree lookup label tree = .ok p ∧ ofTree lookup label' tree = .ok p)
      ∨ ∃ e e', ofTree lookup label tree = .error e ∧ ofTree lookup label' tree = .error e'
          ∧ e.SameCause e' := by
  unfold ofTree
  cases tree.expand lookup with
  | error fault => exact .inr ⟨_, _, rfl, rfl, .same _⟩
  | ok expanded =>
      cases hp : Decode.project expanded with
      | error fault =>
          simp only [hp]
          exact .inr ⟨_, _, rfl, rfl, .descriptor ..⟩
      | ok p =>
          simp only [hp]
          exact .inl ⟨expanded, p, rfl, Decode.name_of_project hp, rfl, rfl⟩

/-- The name of a project that was loaded from a file: the first of the given and the declared
name that is not empty, or else that of the directory of the file, in lower case. -/
theorem resolveName_eq (t : FileTree) (given? : Option String) (declared path : String) :
    resolveName t given? declared path
      = ((given given? <|> given (some declared)).map lowerString).getD
          ((given ((t.directoryName? path).map lowerString)).getD fallbackName) := by
  unfold resolveName
  cases given given? with
  | some name => rfl
  | none =>
      by_cases hdeclared : declared.isEmpty = true
      · simp [given, Option.filter, hdeclared]
      · simp [given, Option.filter, hdeclared]

/-- Both the file and its text give the same project but for its name, or fail for the same
cause. -/
theorem load_copies_cases {t : FileTree} (environment : Template.Lookup) {path text : String}
    (hread : t.readText path = .ok text)
    (hdotenv : t.isFile (Path.sibling path dotenvName) = false) (again : Nat)
    (projectName : Option String) :
    let loaded := load t environment { files := List.replicate (again + 1) path, projectName }
    (∃ p : Project, p.name = declaredIn environment text
        ∧ ofText environment text = .ok (p.orNamed fallbackName)
        ∧ loaded = .ok { p with name := resolveName t projectName p.name path })
      ∨ ∃ e e', ofText environment text = .error e ∧ loaded = .error e' ∧ e.SameCause e' := by
  intro loaded
  have hloaded : loaded = _ := load_copies_eq environment hread hdotenv again projectName
  rw [hloaded, ofText, declaredIn, readTree, readTree]
  cases Tree.read text with
  | error problem => exact .inr ⟨_, _, rfl, rfl, .descriptor ..⟩
  | ok tree =>
      simp only [bind, Except.bind, ofInput]
      obtain ⟨expanded, p, hexpand, hname, hinput, hfile⟩ | ⟨e, e', hinput, hfile, hcause⟩ :=
        ofTree_cases environment inputLabel (sourceLabel (List.replicate (again + 1) path)) tree
      · rw [hexpand, hinput, hfile]
        exact .inl ⟨p, hname, rfl, rfl⟩
      · rw [hinput, hfile]
        exact .inr ⟨e, e', rfl, rfl, hcause⟩

theorem orNamed_parts (p : Project) (name : String) :
    (p.orNamed name).services = p.services ∧ (p.orNamed name).networks = p.networks
      ∧ (p.orNamed name).volumes = p.volumes := by
  unfold orNamed
  split <;> exact ⟨rfl, rfl, rfl⟩

/-- Loading a file once or several times in a row gives what loading its text gives: a project
with the same services, networks and volumes, whose name is the given one, else the declared one,
else that of the directory, or an error with the same cause. -/
theorem load_copies (t : FileTree) (environment : Template.Lookup) {path text : String}
    (hread : t.readText path = .ok text)
    (hdotenv : t.isFile (Path.sibling path dotenvName) = false) (again : Nat)
    (projectName : Option String) :
    let loaded := load t environment { files := List.replicate (again + 1) path, projectName }
    ((∃ q, loaded = .ok q) ↔ ∃ p, ofText environment text = .ok p)
      ∧ (∀ p q, ofText environment text = .ok p → loaded = .ok q →
          q.services = p.services ∧ q.networks = p.networks ∧ q.volumes = p.volumes
            ∧ q.name = ((given projectName <|> given (some (declaredIn environment text))).map
                lowerString).getD
                  ((given ((t.directoryName? path).map lowerString)).getD fallbackName))
      ∧ ∀ e e', ofText environment text = .error e → loaded = .error e' → e.SameCause e' := by
  intro loaded
  obtain ⟨p, hname, htext, hfile⟩ | ⟨e, e', htext, hfile, hcause⟩ :=
    load_copies_cases environment hread hdotenv again projectName
  · rw [htext, show loaded = _ from hfile]
    refine ⟨⟨fun _ => ⟨_, rfl⟩, fun _ => ⟨_, rfl⟩⟩, fun p' q hp hq => ?_,
      fun e _ he => (by cases he)⟩
    cases hp
    cases hq
    obtain ⟨hservices, hnetworks, hvolumes⟩ := p.orNamed_parts fallbackName
    refine ⟨hservices.symm, hnetworks.symm, hvolumes.symm, ?_⟩
    rw [resolveName_eq, hname]
  · rw [htext, show loaded = _ from hfile]
    refine ⟨by simp, fun p q hp => (by cases hp), fun e₁ e₂ he₁ he₂ => ?_⟩
    cases he₁
    cases he₂
    exact hcause

/-- A descriptor whose name comes from the environment. -/
def shopText : String :=
  "name: $NAME\nservices: {web: {image: nginx}}"

/-- A working directory with this descriptor. -/
def shopFiles : FileTree where
  workdir := ["work"]
  nodes := [(["work", "shop.yaml"], .file (Text.encodeUtf8 shopText.toList))]

theorem load_copies_shop :
    shopFiles.readText "shop.yaml" = .ok shopText
      ∧ shopFiles.isFile (Path.sibling "shop.yaml" dotenvName) = false
      ∧ ∃ p q, ofText (fun _ => some "Shop") shopText = .ok p
          ∧ load shopFiles (fun _ => some "Shop") { files := ["shop.yaml", "shop.yaml"] } = .ok q
          ∧ q.services = p.services ∧ p.services.keys = ["web"] ∧ q.name = "shop" := by
  have hread : shopFiles.readText "shop.yaml" = .ok shopText := by decide +kernel
  have hdotenv : shopFiles.isFile (Path.sibling "shop.yaml" dotenvName) = false := by
    decide +kernel
  obtain ⟨hiff, hparts, -⟩ := load_copies shopFiles (fun _ => some "Shop") hread hdotenv 1 none
  have hkeys : (ofText (fun _ => some "Shop") shopText).toOption.map (·.services.keys)
      = some ["web"] := by decide +kernel
  have hname : (((given none <|> given (some (declaredIn (fun _ => some "Shop") shopText))).map
      lowerString).getD ((given ((shopFiles.directoryName? "shop.yaml").map lowerString)).getD
        fallbackName)) = "shop" := by decide +kernel
  refine ⟨hread, hdotenv, ?_⟩
  cases hp : ofText (fun _ => some "Shop") shopText with
  | error e =>
      rw [hp] at hkeys
      cases hkeys
  | ok p =>
      rw [hp] at hkeys
      obtain ⟨q, hq⟩ := hiff.2 ⟨p, hp⟩
      obtain ⟨hservices, -, -, hlower⟩ := hparts p q hp hq
      exact ⟨p, q, rfl, hq, hservices, Option.some.inj hkeys, hlower.trans hname⟩

end Project
end Stackwright
