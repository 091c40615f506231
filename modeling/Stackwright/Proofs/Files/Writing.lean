import Mathlib.Data.List.Basic
import Stackwright.Files.Tree

/-!
# Writing a file

A directory exists if the working directory or a file lies below it, so a new file
could make directories exist that did not before.  It does not: a path is followed
from directory to directory, and everything above the place that it leads to exists
already.

Main results:

- Theorem `supported_of_follow`: everything above a place that a path leads to exists.
- Theorem `writeText_frame`: writing a file changes what stands at its place and
  nothing else.
-/

namespace Stackwright
namespace FileTree

/-- Something lies at a place or below it. -/
def Known (t : FileTree) (place : List String) : Prop :=
  place <+: t.workdir ∨ ∃ entry ∈ t.nodes, place <+: entry.1

/-- Everything above a place exists. -/
def Supported (t : FileTree) (place : List String) : Prop :=
  ∀ above, above <+: place → above ≠ place → t.Known above

variable {t : FileTree} {place : List String}

/-- Everything above a known place is known. -/
theorem Known.of_isPrefix (h : t.Known place) {above : List String} (ha : above <+: place) :
    t.Known above := by
  obtain hworkdir | ⟨entry, hentry, hplace⟩ := h
  · exact .inl (ha.trans hworkdir)
  · exact .inr ⟨entry, hentry, ha.trans hplace⟩

/-! ## Looking at a place -/

/-- What is listed at a place stands there. -/
theorem at?_of_lookup_eq_some {node : FileNode} (h : t.nodes.lookup place = some node) :
    t.at? place = some node := by
  rw [at?, h]

/-- Where no file or directory of its own stands, there is a directory if something lies
below. -/
theorem at?_eq_some_iff_of_lookup (h : t.nodes.lookup place = none) (node : FileNode) :
    t.at? place = some node ↔ node = .directory ∧ t.Known place := by
  have hat : t.at? place = some node ↔
      (place.isPrefixOf t.workdir || t.nodes.any fun entry => place.isPrefixOf entry.1) = true
        ∧ some FileNode.directory = some node := by
    rw [at?, h]
    exact Option.ite_none_right_eq_some
  rw [hat, Bool.or_eq_true, List.any_eq_true, and_comm, Option.some.injEq,
    eq_comm (a := node)]
  simp only [List.isPrefixOf_iff_prefix, Known]

/-- A place where something stands is known. -/
theorem known_of_at?_eq_some {node : FileNode} (h : t.at? place = some node) :
    t.Known place := by
  cases hnode : t.nodes.lookup place with
  | some found =>
      obtain ⟨front, back, hnodes, -⟩ := List.lookup_eq_some_iff.1 hnode
      exact .inr ⟨(place, found), by simp [hnodes], List.prefix_refl place⟩
  | none => exact ((at?_eq_some_iff_of_lookup hnode node).1 h).2

/-! ## Following a path -/

theorem Supported.dropLast (h : t.Supported place) : t.Supported place.dropLast := by
  intro above habove hne
  refine h above (habove.trans (List.dropLast_prefix place)) fun heq => hne ?_
  -- A place that is above its own directory is the root.
  subst heq
  exact habove.eq_of_length_le (by simp)

/-- A name under a known place is supported by it. -/
theorem Supported.concat (h : t.Known place) (name : String) :
    t.Supported (place ++ [name]) := by
  intro above habove hne
  obtain heq | habove := List.prefix_concat_iff.1 habove
  · exact absurd heq hne
  · exact h.of_isPrefix habove

/-- Following components keeps everything above the place in existence. -/
theorem supported_of_walk {names : List String} {reached : List String}
    (h : t.walk place names = .ok reached) (hplace : t.Supported place) :
    t.Supported reached := by
  induction names generalizing place with
  | nil =>
      cases h
      exact hplace
  | cons name rest ih =>
      rw [walk] at h
      cases hnode : t.at? place with
      | none => simp [hnode] at h
      | some node =>
          have hknown : t.Known place := known_of_at?_eq_some hnode
          cases node with
          | file content => simp [hnode] at h
          | directory =>
              simp only [hnode] at h
              split_ifs at h
              · exact ih h hplace
              · exact ih h hplace.dropLast
              · exact ih h (.concat hknown name)

theorem supported_start (t : FileTree) (path : String) : t.Supported (t.start path) := by
  intro above habove hne
  rw [start] at habove hne
  split_ifs at habove hne
  · exact absurd (List.prefix_nil.1 habove) hne
  · exact .inl habove

/-- Everything above a place that a path leads to exists. -/
theorem supported_of_follow {path : String} {names : List String}
    (h : t.follow path names = .ok place) : t.Supported place := by
  rw [follow] at h
  split_ifs at h
  exact supported_of_walk h (t.supported_start path)

/-! ## Putting something at a place -/

/-- What is put at a place stands there. -/
theorem at?_put_self (t : FileTree) (place : List String) (node : FileNode) :
    (t.put place node).at? place = some node :=
  at?_of_lookup_eq_some (by simp [put])

theorem lookup_filter_ne {nodes : List (List String × FileNode)} {other : List String}
    (hne : other ≠ place) :
    (nodes.filter (·.1 != place)).lookup other = nodes.lookup other := by
  induction nodes with
  | nil => rfl
  | cons entry nodes ih =>
      obtain ⟨key, node⟩ := entry
      by_cases hkey : key = place
      · have hother : (other == key) = false := by simp [hkey, hne]
        simp [hkey, List.lookup_cons, ih, hkey ▸ hother]
      · simp [hkey, List.lookup_cons, ih]

/-- What is put at a place makes nothing known but itself, if everything above it is. -/
theorem known_put_iff (hplace : t.Supported place) (node : FileNode) {other : List String}
    (hne : other ≠ place) : (t.put place node).Known other ↔ t.Known other := by
  constructor
  · rintro (hworkdir | ⟨entry, hentry, hother⟩)
    · exact .inl hworkdir
    · obtain rfl | hentry := List.mem_cons.1 hentry
      · exact hplace other hother hne
      · exact .inr ⟨entry, List.mem_of_mem_filter hentry, hother⟩
  · rintro (hworkdir | ⟨entry, hentry, hother⟩)
    · exact .inl hworkdir
    · -- What was at the place is replaced by something at the same place.
      by_cases hkey : entry.1 = place
      · exact .inr ⟨(place, node), List.mem_cons_self, hkey ▸ hother⟩
      · refine .inr ⟨entry, List.mem_cons_of_mem _ (List.mem_filter.2 ⟨hentry, ?_⟩), hother⟩
        simpa using hkey

/-- What stands at other places stays there. -/
theorem at?_put_of_ne (hplace : t.Supported place) (node : FileNode) {other : List String}
    (hne : other ≠ place) : (t.put place node).at? other = t.at? other := by
  have hlookup : (t.put place node).nodes.lookup other = t.nodes.lookup other := by
    have hother : (other == place) = false := by simpa using hne
    simp only [put, List.lookup_cons, hother]
    exact lookup_filter_ne hne
  cases hnode : t.nodes.lookup other with
  | some found =>
      rw [at?_of_lookup_eq_some hnode, at?_of_lookup_eq_some (hlookup.trans hnode)]
  | none =>
      ext found
      rw [at?_eq_some_iff_of_lookup hnode, at?_eq_some_iff_of_lookup (hlookup.trans hnode),
        known_put_iff hplace node hne]

/-- Writing a file changes what stands at its place and nothing else. -/
theorem writeText_frame {path : String} {text : List Char} {t' : FileTree}
    (h : t.writeText path text = .ok t') :
    ∃ place, t.follow path (targetNames path) = .ok place
      ∧ t'.at? place = some (.file (Text.encodeUtf8 text))
      ∧ ∀ other, other ≠ place → t'.at? other = t.at? other := by
  rw [writeText] at h
  cases hplace : t.follow path (targetNames path) with
  | error fault => simp [hplace] at h
  | ok place =>
      simp only [hplace] at h
      split_ifs at h with hdirectory
      cases h
      refine ⟨place, rfl, at?_put_self .., fun other hne => ?_⟩
      exact at?_put_of_ne (supported_of_follow hplace) _ hne

end FileTree
end Stackwright
