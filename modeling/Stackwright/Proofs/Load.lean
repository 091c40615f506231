import Stackwright.Load
import Stackwright.Proofs.Builder.Arrangement
import Stackwright.Proofs.Decode.Project

/-!
# Loading documents in any order

The entries of the mappings of a document may be written in any order: its variables
are expanded, it is decoded and its services are brought into normal form with alike
results.  The dictionaries of a project that was read may be walked in any order, not only
in that of the document, and the same program is generated from it.

Keys have to differ in more than the tags around them.  A dictionary drops these
tags, so `a` and `!t a` are one key to it although they are two keys of the document,
and the entry that is written last is the one that stays.

Main results:

- Theorem `ofTree_reordered`: a document in another order describes an alike project, and
  its program is the same however the dictionaries of either project are walked.
- Theorem `ofTree_reordered_taggedKey`: keys that differ only in a tag make the order
  count.
-/

namespace Stackwright
namespace Project

open Document (Tree)

/-- Shuffled trees describe alike projects or none. -/
theorem agree_ofTree (lookup : Template.Lookup) (label : String) {d d' : Tree}
    (h : Decode.Shuffled d d') :
    Agree Alike (ofTree lookup label d) (ofTree lookup label d') := by
  have hexpand := h.reordered.expand lookup
  unfold ofTree
  generalize hd : d.expand lookup = expanded at hexpand ⊢
  generalize d'.expand lookup = expanded' at hexpand ⊢
  cases hexpand with
  | error fault fault' => exact .error _ _
  | @ok t t' related =>
      have hproject := Decode.agree_project ⟨related, h.distinct.expand hd⟩
      simp only
      generalize Decode.project t = decoded at hproject ⊢
      generalize Decode.project t' = decoded' at hproject ⊢
      cases hproject with
      | error fault fault' => exact .error _ _
      | ok hp => exact .ok hp

/-- A project that was read from a tree stores its services under their own names. -/
theorem namesServices_ofTree {lookup : Template.Lookup} {label : String} {d : Tree} {p : Project}
    (h : ofTree lookup label d = .ok p) : p.NamesServices := by
  unfold ofTree at h
  split at h
  · cases h
  · split at h
    · cases h
    · rename_i project hproject
      cases h
      obtain ⟨descriptor, -, rfl⟩ := map_eq_ok_iff.1 hproject
      exact descriptor.namesServices_project

/-- A document in another order describes a project if it does so itself, and the projects are
alike.  Whatever orders their dictionaries are walked in, the same program is generated from
both. -/
theorem ofTree_reordered (lookup : Template.Lookup) (label : String) (options : GenerateOptions)
    {d d' : Tree} (hreordered : d.Reordered d') (hkeys : d.DistinctKeys Tree.untagged) :
    ((∃ p, ofTree lookup label d = .ok p) ↔ ∃ p, ofTree lookup label d' = .ok p)
      ∧ ∀ p p', ofTree lookup label d = .ok p → ofTree lookup label d' = .ok p' →
          Alike p p'
            ∧ ∀ q q', Alike p q → Alike p' q' →
                q.generate options = q'.generate options
                  ∧ ∀ mode, q.generateIn mode options = q'.generateIn mode options := by
  have hagree := agree_ofTree lookup label ⟨hreordered, hkeys⟩
  refine ⟨hagree.exists_ok_iff, fun p p' hp hp' => ?_⟩
  obtain ⟨_, hsecond, halike⟩ := hagree.exists_ok hp
  obtain rfl := Except.ok.inj (hsecond.symm.trans hp')
  refine ⟨halike, fun q q' hq hq' => ?_⟩
  -- Walking the dictionaries of both projects in other orders keeps all four projects alike.
  have hwalked : Alike q q' := hq.symm.trans (halike.trans hq')
  have hnames : q.NamesServices := (namesServices_ofTree hp).of_alike hq
  exact ⟨hwalked.generate_eq hnames options, fun mode => hwalked.generateIn_eq hnames mode options⟩

/-- The services of a shop, with the variables of its only service. -/
def shopServices (settings : List (Tree × Tree)) : Tree :=
  .mapping [(.text "web", .mapping [(.text "environment", .mapping settings)])]

/-- A document that names its project first. -/
def shopDocument : Tree :=
  .mapping
    [ (.text "name", .text "shop"),
      (.text "services", shopServices
        [(.text "HOME", .text "$HOME"), (.text "LANG", .text "C")]) ]

/-- The document with its top and the variables of its service in another order. -/
def shopReordered : Tree :=
  .mapping
    [ (.text "services", shopServices
        [(.text "LANG", .text "C"), (.text "HOME", .text "$HOME")]),
      (.text "name", .text "shop") ]

/-- In which order the variables of the services of a project that was read are walked. -/
def walkOf (outcome : Except Error Project) : Option (List (List String)) :=
  outcome.toOption.map fun p => p.services.values.map fun s => s.environment.entries.map Prod.fst

/-- The two documents differ in the order of their entries only, at two depths. -/
theorem shopDocument_reordered : shopDocument.Reordered shopReordered := by
  have hservices (a b : Tree × Tree) : (shopServices [a, b]).Reordered (shopServices [b, a]) :=
    .under _ (.under _ (.of_perm (.swap ..)))
  have hentry (a b : Tree × Tree) : Tree.ReorderedEntry (.text "services", shopServices [a, b])
      (.text "services", shopServices [b, a]) :=
    .parts (.refl _) (hservices a b)
  exact .mapping (.cons (.parts (.refl _) (.refl _)) (.cons (hentry _ _) .nil)) (.swap ..)

theorem shopDocument_distinctKeys : shopDocument.DistinctKeys Tree.untagged := by
  simp [shopDocument, shopServices, Tree.DistinctKeys.mapping_iff, Tree.untagged, Tree.same]

/-- The variables of the shop are walked in two orders, and the program is the same. -/
theorem ofTree_reordered_shop :
    shopDocument.Reordered shopReordered ∧ shopDocument.DistinctKeys Tree.untagged
      ∧ ∃ p p', ofTree some "shop" shopDocument = .ok p
          ∧ ofTree some "shop" shopReordered = .ok p' ∧ p ≠ p' ∧ Alike p p'
          ∧ p.name = "shop" ∧ p.generate {} = p'.generate {} := by
  obtain ⟨hiff, hprojects⟩ :=
    ofTree_reordered some "shop" {} shopDocument_reordered shopDocument_distinctKeys
  have hwalked : walkOf (ofTree some "shop" shopDocument) = some [["HOME", "LANG"]] := by
    decide +kernel
  have hwalked' : walkOf (ofTree some "shop" shopReordered) = some [["LANG", "HOME"]] := by
    decide +kernel
  cases hp : ofTree some "shop" shopDocument with
  | error e =>
      rw [hp] at hwalked
      cases hwalked
  | ok p =>
      obtain ⟨p', hp'⟩ := hiff.1 ⟨p, hp⟩
      obtain ⟨halike, hgenerate⟩ := hprojects p p' hp hp'
      rw [hp] at hwalked
      rw [hp'] at hwalked'
      refine ⟨shopDocument_reordered, shopDocument_distinctKeys, p, p', rfl, hp', ?_, halike, ?_,
        (hgenerate p p' (.refl p) (.refl p')).1⟩
      · rintro rfl
        exact absurd (hwalked.symm.trans hwalked') (by decide)
      · have hname : (ofTree some "shop" shopDocument).toOption.map (·.name) = some "shop" := by
          decide +kernel
        rw [hp] at hname
        exact Option.some.inj hname

/-! ## Keys that differ only in a tag -/

/-- A document with the given services. -/
def servicesOf (entries : List (Tree × Tree)) : Tree :=
  .mapping [(.text "services", .mapping entries)]

/-- A service with an image, under the name `a`. -/
def plainEntry : Tree × Tree :=
  (.text "a", .mapping [(.text "image", .text "x")])

/-- A service with another image, under the same name with a tag. -/
def taggedEntry : Tree × Tree :=
  (.tagged "!t" (.text "a"), .mapping [(.text "image", .text "y")])

/-- The image of a service of a project that was read. -/
def imageOf (outcome : Except Error Project) (name : String) : Option String :=
  outcome.toOption.bind fun p => (p.services.get? name).bind (·.image)

/-- Alike projects have the same images. -/
theorem imageOf_eq_of_alike {p p' : Project} (h : Alike p p') (name : String) :
    imageOf (.ok p) name = imageOf (.ok p') name := by
  obtain ⟨-, hservices, -, -⟩ := alike_iff.1 h
  have himage (service : Option Service) :
      (service.map arranged).bind (·.image) = service.bind (·.image) := by
    cases service <;> rfl
  have hname := congrArg (·.bind (·.image)) (Dict.alike_iff.1 hservices name)
  simp only [himage] at hname
  exact hname

theorem exists_not_alike_of_imageOf {outcome outcome' : Except Error Project} {name x y : String}
    (h : imageOf outcome name = some x) (h' : imageOf outcome' name = some y) (hne : x ≠ y) :
    ∃ p p', outcome = .ok p ∧ outcome' = .ok p' ∧ ¬ Alike p p' := by
  cases outcome with
  | error e => cases h
  | ok p =>
      cases outcome' with
      | error e => cases h'
      | ok p' =>
          refine ⟨p, p', rfl, rfl, fun halike => hne ?_⟩
          rw [imageOf_eq_of_alike halike, h'] at h
          exact (Option.some.inj h).symm

/-- Keys that are different in the document but not without their tags make the order
count. -/
theorem ofTree_reordered_taggedKey :
    (servicesOf [plainEntry, taggedEntry]).Reordered (servicesOf [taggedEntry, plainEntry])
      ∧ (servicesOf [plainEntry, taggedEntry]).DistinctKeys id
      ∧ ∃ p p', ofTree some "twins" (servicesOf [plainEntry, taggedEntry]) = .ok p
          ∧ ofTree some "twins" (servicesOf [taggedEntry, plainEntry]) = .ok p'
          ∧ ¬ Alike p p' := by
  refine ⟨.under _ (.of_perm (.swap ..)), ?_, ?_⟩
  · simp [servicesOf, plainEntry, taggedEntry, Tree.DistinctKeys.mapping_iff,
      Tree.DistinctKeys.tagged_iff, Tree.same]
  · have hlast : imageOf (ofTree some "twins" (servicesOf [plainEntry, taggedEntry])) "a"
        = some "y" := by decide +kernel
    have hfirst : imageOf (ofTree some "twins" (servicesOf [taggedEntry, plainEntry])) "a"
        = some "x" := by decide +kernel
    exact exists_not_alike_of_imageOf hlast hfirst (by decide)

end Project
end Stackwright
