import Stackwright.Proofs.Document.Keys

/-!
# The values of a merged document

A path of keys leads from a document through its mappings to a value.  Merging an
overlay over a base document is described path by path: what the overlay has at a
path wins, what it does not have or has as a null stays as the base has it, and
nothing else is there.  One level of a path is one look-up, so everything rests on
the entry that a key has in merged mappings (`valueUnder_mergeEntries`).

Main results:

- Theorem `valueUnder_mergeEntries`: under each key of merged mappings stands the
  merge of the two values, or the one that there is.
- Theorem `merge_merge`: merging an overlay a second time changes nothing.
- Theorem `merge_lastWriterWins`: merging is last writer wins at every path, and
  leaves what is already merged as it is.
-/

namespace Stackwright
namespace Document
namespace Tree

/-! ## Values at paths -/

/-- The value under a key. -/
def valueUnder (key : Tree) (entries : List (Tree × Tree)) : Option Tree :=
  (entries.find? fun e => same e.1 key).map (·.2)

/-- The value at a path of keys.  Only mappings without a tag are entered. -/
def valueAt : Tree → List Tree → Option Tree
  | t, [] => some t
  | .mapping entries, key :: path => (valueUnder key entries).bind (valueAt · path)
  | _, _ :: _ => none

/-- Whether a value is a mapping. -/
def isMapping : Tree → Bool
  | .mapping _ => true
  | _ => false

/-- An overlay has no value at a path but null, and nothing on the way there that would
replace a mapping. -/
structure Yields (overlay : Tree) (path : List Tree) : Prop where
  end_null : ∀ v, overlay.valueAt path = some v → v = .null
  way_open : ∀ front, front <+: path → front ≠ path →
    ∀ v, overlay.valueAt front = some v → v = .null ∨ v.isMapping = true

/-- What a merged document has at a path. -/
structure LastWriterWins (base overlay merged : Tree) (path : List Tree) : Prop where
  /-- A value of the overlay wins. -/
  overlay_wins : ∀ v, overlay.valueAt path = some v → v ≠ .null → v.isMapping = false →
    merged.valueAt path = some v
  /-- A value of the base stays where the overlay yields; only a null replaces a null that
  has a tag. -/
  base_stays : ∀ v, base.valueAt path = some v → overlay.Yields path →
    overlay.valueAt path = none ∨ v.untagged ≠ .null → merged.valueAt path = some v
  /-- A null with a tag loses its tag to a null of the overlay. -/
  tag_lost : ∀ v, base.valueAt path = some v → v.untagged = .null →
    overlay.valueAt path = some .null → merged.valueAt path = some .null
  /-- Every value comes from one of the two. -/
  has_source : merged.valueAt path ≠ none →
    base.valueAt path ≠ none ∨ overlay.valueAt path ≠ none

@[simp]
theorem valueAt_nil (t : Tree) : t.valueAt [] = some t := by
  cases t <;> rfl

@[simp]
theorem valueAt_mapping_cons (entries : List (Tree × Tree)) (key : Tree) (path : List Tree) :
    (mapping entries).valueAt (key :: path) = (valueUnder key entries).bind (valueAt · path) :=
  rfl

/-- A value below the root is a value below an entry. -/
theorem valueAt_cons_eq_some {t v key : Tree} {path : List Tree}
    (h : t.valueAt (key :: path) = some v) :
    ∃ entries u, t = .mapping entries ∧ valueUnder key entries = some u
      ∧ u.valueAt path = some v := by
  cases t with
  | mapping entries =>
      obtain ⟨u, hunder, hvalue⟩ := Option.bind_eq_some_iff.1 h
      exact ⟨entries, u, rfl, hunder, hvalue⟩
  | _ => cases h

/-! ## Entries of merged mappings -/

theorem valueUnder_cons (key : Tree) (e : Tree × Tree) (entries : List (Tree × Tree)) :
    valueUnder key (e :: entries)
      = if same e.1 key then some e.2 else valueUnder key entries := by
  rw [valueUnder, List.find?_cons]
  cases same e.1 key <;> rfl

/-- A value under a key is the value of an entry whose key is the same. -/
theorem mem_of_valueUnder {key v : Tree} {entries : List (Tree × Tree)}
    (h : valueUnder key entries = some v) : ∃ e ∈ entries, same e.1 key = true ∧ e.2 = v := by
  obtain ⟨e, hfind, hv⟩ := Option.map_eq_some_iff.1 h
  have hsame := List.find?_some (p := fun e : Tree × Tree => same e.1 key) hfind
  exact ⟨e, List.mem_of_find?_eq_some hfind, hsame, hv⟩

theorem DistinctKeys.valueUnder {key v : Tree} {entries : List (Tree × Tree)}
    (h : (Tree.mapping entries).DistinctKeys id) (hv : Tree.valueUnder key entries = some v) :
    v.DistinctKeys id := by
  obtain ⟨e, he, -, rfl⟩ := mem_of_valueUnder hv
  exact (DistinctKeys.mapping_iff.1 h).2.2 e he

theorem valueUnder_eq_none {key : Tree} {entries : List (Tree × Tree)}
    (h : ∀ e ∈ entries, same e.1 key = false) : valueUnder key entries = none := by
  rw [valueUnder, List.find?_eq_none.2 (by simpa using h)]
  rfl

/-- With distinct keys, an entry is found under its own key. -/
theorem valueUnder_of_mem {entries : List (Tree × Tree)} {e : Tree × Tree}
    (distinct : entries.Pairwise fun e f => same (id e.1) (id f.1) = false) (he : e ∈ entries) :
    valueUnder e.1 entries = some e.2 := by
  induction distinct with
  | nil => cases he
  | cons hfirst _ ih =>
      rw [valueUnder_cons]
      rcases List.mem_cons.1 he with rfl | he
      · rw [same_self, if_pos rfl]
      · have hne := hfirst e he
        rw [id, id] at hne
        rw [hne, if_neg Bool.false_ne_true, ih he]

/-- Keys that are the same as a key are the same as the same keys. -/
theorem same_eq_of_same {a b : Tree} (h : a.DistinctKeys id) (hab : same a b = true) (c : Tree) :
    same a c = same b c := by
  rw [Bool.eq_iff_iff]
  exact ⟨same_trans (same_symm h hab), same_trans hab⟩

/-- A change under one key is seen under the keys that are the same, and under no
other. -/
theorem valueUnder_upsert {key fresh : Tree} {change : Tree → Tree}
    {entries : List (Tree × Tree)} (hkey : key.DistinctKeys id)
    (keys : ∀ e ∈ entries, e.1.DistinctKeys id) (k : Tree) :
    valueUnder k (upsert key change fresh entries)
      = if same key k then some ((valueUnder k entries).elim fresh change)
        else valueUnder k entries := by
  induction entries with
  | nil =>
      rw [upsert, valueUnder_cons]
      rfl
  | cons e rest ih =>
      obtain ⟨hfirst, hrest⟩ := List.forall_mem_cons.1 keys
      rw [upsert, valueUnder_cons]
      cases hsame : same e.1 key with
      | true =>
          rw [if_pos rfl, valueUnder_cons, same_eq_of_same hfirst hsame]
          cases same key k <;> rfl
      | false =>
          rw [if_neg Bool.false_ne_true, valueUnder_cons, ih hrest]
          cases hentry : same e.1 k with
          | false => rfl
          | true =>
              -- `k` cannot be the same as both keys, so the change is not seen from it.
              have hother : same key k = false := by
                rw [Bool.eq_false_iff]
                intro hk
                rw [same_trans hentry (same_symm hkey hk)] at hsame
                exact absurd hsame (by decide)
              rw [hother]
              rfl

/-- Keys stay well-formed when an entry is changed or added. -/
theorem forall_key_upsert {key fresh : Tree} {change : Tree → Tree}
    {entries : List (Tree × Tree)} (hkey : key.DistinctKeys id)
    (keys : ∀ e ∈ entries, e.1.DistinctKeys id) :
    ∀ e ∈ upsert key change fresh entries, e.1.DistinctKeys id := by
  induction entries with
  | nil => simpa [upsert] using hkey
  | cons e rest ih =>
      obtain ⟨hfirst, hrest⟩ := List.forall_mem_cons.1 keys
      rw [upsert]
      split
      · exact List.forall_mem_cons.2 ⟨hfirst, hrest⟩
      · exact List.forall_mem_cons.2 ⟨hfirst, ih hrest⟩

/-- The value under a key of merged mappings, from the values under it. -/
def mergeValues : Option Tree → Option Tree → Option Tree
  | some b, some o => some (merge b o)
  | some b, none => some b
  | none, o => o

/-- Under each key of merged mappings stands the merge of the two values, or the one
that there is. -/
theorem valueUnder_mergeEntries {base overlay : List (Tree × Tree)}
    (hbase : ∀ e ∈ base, e.1.DistinctKeys id) (hoverlay : ∀ e ∈ overlay, e.1.DistinctKeys id)
    (distinct : overlay.Pairwise fun e f => same (id e.1) (id f.1) = false) (k : Tree) :
    valueUnder k (mergeEntries base overlay)
      = mergeValues (valueUnder k base) (valueUnder k overlay) := by
  induction overlay generalizing base with
  | nil =>
      rw [mergeEntries]
      cases valueUnder k base <;> rfl
  | cons e rest ih =>
      obtain ⟨key, value⟩ := e
      obtain ⟨hkey, hkeys⟩ := List.forall_mem_cons.1 hoverlay
      obtain ⟨hfirst, hrest⟩ := List.pairwise_cons.1 distinct
      rw [mergeEntries, ih (forall_key_upsert hkey hbase) hkeys hrest,
        valueUnder_upsert hkey hbase, valueUnder_cons]
      cases hk : same key k with
      | false => rfl
      | true =>
          -- The keys are distinct, so no entry after this one is under `k` too.
          have hnone : valueUnder k rest = none := by
            refine valueUnder_eq_none fun e he => ?_
            rw [Bool.eq_false_iff]
            intro hek
            have hne := hfirst e he
            rw [id, id, same_trans hk (same_symm (hkeys e he) hek)] at hne
            exact absurd hne (by decide)
          rw [hnone]
          cases valueUnder k base <;> rfl

/-! ## Merging twice -/

/-- A change that keeps the value under a key keeps the entries. -/
theorem upsert_eq_self {key fresh v : Tree} {change : Tree → Tree}
    {entries : List (Tree × Tree)} (h : valueUnder key entries = some v) (hv : change v = v) :
    upsert key change fresh entries = entries := by
  induction entries with
  | nil => cases h
  | cons e rest ih =>
      rw [valueUnder_cons] at h
      rw [upsert]
      cases hsame : same e.1 key with
      | true =>
          rw [hsame, if_pos rfl, Option.some.injEq] at h
          rw [if_pos rfl, h, hv, ← h]
      | false =>
          rw [hsame, if_neg Bool.false_ne_true] at h
          rw [if_neg Bool.false_ne_true, ih h]

/-- Entries whose values are already merged are merged without a change. -/
theorem mergeEntries_eq_self {merged overlay : List (Tree × Tree)}
    (h : ∀ e ∈ overlay, ∃ v, valueUnder e.1 merged = some v ∧ merge v e.2 = v) :
    mergeEntries merged overlay = merged := by
  induction overlay with
  | nil => rw [mergeEntries]
  | cons e rest ih =>
      obtain ⟨⟨v, hunder, hv⟩, hrest⟩ := List.forall_mem_cons.1 h
      rw [mergeEntries, upsert_eq_self hunder hv, ih hrest]

/-- Merging an overlay a second time changes nothing. -/
theorem merge_merge {base overlay : Tree} (hbase : base.DistinctKeys id)
    (hoverlay : overlay.DistinctKeys id) :
    merge (merge base overlay) overlay = merge base overlay := by
  induction overlay using memberInduction generalizing base with
  | scalar overlay leaf =>
      cases overlay with
      | null =>
          cases hnull : base.untagged.isNull with
          | true =>
              have hmerge : merge base .null = .null := by rw [merge, hnull, if_pos rfl]
              rw [hmerge, null_merge]
          | false =>
              have hmerge : merge base .null = base := by
                rw [merge, hnull, if_neg Bool.false_ne_true]
              rw [hmerge, hmerge]
      | bool value | int value | float value | text value => rfl
      | _ => cases leaf
  | sequence items _ | tagged tag value _ => rfl
  | mapping overlay ih =>
      cases base with
      | mapping entries =>
          obtain ⟨-, keys, -⟩ := DistinctKeys.mapping_iff.1 hbase
          obtain ⟨distinct, keys', values'⟩ := DistinctKeys.mapping_iff.1 hoverlay
          rw [merge, merge]
          congr 1
          refine mergeEntries_eq_self fun e he => ?_
          rw [valueUnder_mergeEntries keys keys' distinct, valueUnder_of_mem distinct he]
          cases hunder : valueUnder e.1 entries with
          | none => exact ⟨e.2, rfl, merge_self (values' e he)⟩
          | some b =>
              exact ⟨merge b e.2, rfl, (ih e he).2 (hbase.valueUnder hunder) (values' e he)⟩
      | _ => exact merge_self hoverlay

/-! ## Paths through merged documents -/

/-- What stands in the way of a path stands in the way of its rest. -/
theorem Yields.of_cons {entries : List (Tree × Tree)} {key o : Tree} {path : List Tree}
    (h : (mapping entries).Yields (key :: path)) (ho : valueUnder key entries = some o) :
    o.Yields path where
  end_null v hv := h.end_null v (by rw [valueAt_mapping_cons, ho]; exact hv)
  way_open front hfront hne v hv := by
    have hpath : key :: front <+: key :: path := List.cons_prefix_cons.2 ⟨rfl, hfront⟩
    refine h.way_open (key :: front) hpath (by simpa using hne) v ?_
    rw [valueAt_mapping_cons, ho]
    exact hv

theorem yields_null : Yields .null [] where
  end_null _ hv := (Option.some.inj hv).symm
  way_open _ hfront hne := absurd (List.prefix_nil.1 hfront) hne

/-- A mapping yields to a path if the value on its way does. -/
theorem Yields.cons {entries : List (Tree × Tree)} {key o : Tree} {path : List Tree}
    (ho : valueUnder key entries = some o) (h : o.Yields path) :
    (mapping entries).Yields (key :: path) where
  end_null v hv := by
    rw [valueAt_mapping_cons, ho] at hv
    exact h.end_null v hv
  way_open front hfront hne v hv := by
    rcases List.prefix_cons_iff.1 hfront with rfl | ⟨rest, rfl, hrest⟩
    · cases hv
      exact .inr rfl
    · rw [valueAt_mapping_cons, ho] at hv
      exact h.way_open rest hrest (by simpa using hne) v hv

theorem exists_of_isMapping {t : Tree} (h : t.isMapping = true) :
    ∃ entries, t = .mapping entries := by
  cases t with
  | mapping entries => exact ⟨entries, rfl⟩
  | _ => cases h

/-- An overlay that yields to a path below the root is null or a mapping. -/
theorem Yields.root {overlay key : Tree} {path : List Tree} (h : overlay.Yields (key :: path)) :
    overlay = .null ∨ ∃ entries, overlay = .mapping entries := by
  rcases h.way_open [] (List.nil_prefix) (by simp) overlay (valueAt_nil overlay) with h | h
  · exact .inl h
  · exact .inr (exists_of_isMapping h)

/-- A value that is neither null nor a mapping replaces what was there. -/
theorem merge_of_replaces {base v : Tree} (hnull : v ≠ .null) (hmapping : v.isMapping = false) :
    merge base v = v := by
  cases v with
  | null => exact absurd rfl hnull
  | mapping entries => cases hmapping
  | _ => rfl

/-- A null changes nothing but a null. -/
theorem merge_null_of_ne {base : Tree} (h : base.untagged ≠ .null) : merge base .null = base := by
  have hnull : base.untagged.isNull = false := by
    cases hbase : base.untagged with
    | null => exact absurd hbase h
    | _ => rfl
  rw [merge, hnull, if_neg Bool.false_ne_true]

theorem merge_mapping_of_not {base : Tree} (h : base.isMapping = false)
    (overlay : List (Tree × Tree)) : merge base (.mapping overlay) = .mapping overlay := by
  cases base with
  | mapping entries => cases h
  | _ => rfl

/-- One step of a path into merged mappings. -/
theorem valueAt_merge_cons {base overlay : List (Tree × Tree)}
    (hbase : (mapping base).DistinctKeys id) (hoverlay : (mapping overlay).DistinctKeys id)
    (key : Tree) (path : List Tree) :
    (merge (.mapping base) (.mapping overlay)).valueAt (key :: path)
      = (mergeValues (valueUnder key base) (valueUnder key overlay)).bind (valueAt · path) := by
  obtain ⟨-, keys, -⟩ := DistinctKeys.mapping_iff.1 hbase
  obtain ⟨distinct, keys', -⟩ := DistinctKeys.mapping_iff.1 hoverlay
  rw [merge, valueAt_mapping_cons, valueUnder_mergeEntries keys keys' distinct]

/-- A value of the overlay that is neither null nor a mapping is the merged value. -/
theorem merge_overlay_wins {base overlay v : Tree} {path : List Tree}
    (hbase : base.DistinctKeys id) (hoverlay : overlay.DistinctKeys id)
    (h : overlay.valueAt path = some v) (hnull : v ≠ .null) (hmapping : v.isMapping = false) :
    (merge base overlay).valueAt path = some v := by
  induction path generalizing base overlay with
  | nil =>
      rw [valueAt_nil, Option.some.injEq] at h
      rw [h, valueAt_nil, merge_of_replaces hnull hmapping]
  | cons key path ih =>
      obtain ⟨entries', o, rfl, ho, hv⟩ := valueAt_cons_eq_some h
      cases hkind : base.isMapping with
      | false => rwa [merge_mapping_of_not hkind]
      | true =>
          obtain ⟨entries, rfl⟩ := exists_of_isMapping hkind
          rw [valueAt_merge_cons hbase hoverlay, ho]
          cases hb : valueUnder key entries with
          | none => exact hv
          | some b => exact ih (hbase.valueUnder hb) (hoverlay.valueUnder ho) hv

/-- A value of the base stays below an overlay that yields, unless a null takes its tag
away. -/
theorem merge_base_stays {base overlay v : Tree} {path : List Tree}
    (hbase : base.DistinctKeys id) (hoverlay : overlay.DistinctKeys id)
    (h : base.valueAt path = some v) (hyields : overlay.Yields path)
    (hv : overlay.valueAt path = none ∨ v.untagged ≠ .null) :
    (merge base overlay).valueAt path = some v := by
  induction path generalizing base overlay with
  | nil =>
      rw [valueAt_nil, Option.some.injEq] at h
      obtain rfl := hyields.end_null overlay (valueAt_nil overlay)
      rw [valueAt_nil, h, merge_null_of_ne (by simpa using hv)]
  | cons key path ih =>
      obtain ⟨entries, b, rfl, hb, hvalue⟩ := valueAt_cons_eq_some h
      rcases hyields.root with rfl | ⟨entries', rfl⟩
      · rwa [merge_null_of_ne (by simp [untagged])]
      · rw [valueAt_merge_cons hbase hoverlay, hb]
        cases ho : valueUnder key entries' with
        | none => exact hvalue
        | some o =>
            rw [valueAt_mapping_cons, ho] at hv
            exact ih (hbase.valueUnder hb) (hoverlay.valueUnder ho) hvalue (hyields.of_cons ho) hv

/-- A null takes the place of a null, and its tag away. -/
theorem merge_tag_lost {base overlay v : Tree} {path : List Tree}
    (hbase : base.DistinctKeys id) (hoverlay : overlay.DistinctKeys id)
    (h : base.valueAt path = some v) (hv : v.untagged = .null)
    (hnull : overlay.valueAt path = some .null) :
    (merge base overlay).valueAt path = some .null := by
  induction path generalizing base overlay with
  | nil =>
      rw [valueAt_nil, Option.some.injEq] at h hnull
      rw [h, hnull, valueAt_nil, merge, hv]
      rfl
  | cons key path ih =>
      obtain ⟨entries, b, rfl, hb, hvalue⟩ := valueAt_cons_eq_some h
      obtain ⟨entries', o, rfl, ho, hvalue'⟩ := valueAt_cons_eq_some hnull
      rw [valueAt_merge_cons hbase hoverlay, hb, ho]
      exact ih (hbase.valueUnder hb) (hoverlay.valueUnder ho) hvalue hvalue'

/-- A merge that does not go into two mappings is one of the two documents. -/
theorem merge_cases (base overlay : Tree) :
    (∃ entries entries', base = .mapping entries ∧ overlay = .mapping entries') ∨
      merge base overlay = base ∨ merge base overlay = overlay := by
  cases overlay with
  | mapping entries' =>
      cases hkind : base.isMapping with
      | false => exact .inr (.inr (merge_mapping_of_not hkind entries'))
      | true =>
          obtain ⟨entries, rfl⟩ := exists_of_isMapping hkind
          exact .inl ⟨entries, entries', rfl, rfl⟩
  | null =>
      rw [merge]
      split
      · exact .inr (.inr rfl)
      · exact .inr (.inl rfl)
  | _ => exact .inr (.inr rfl)

/-- A merged document has a value only where one of the two has one. -/
theorem merge_has_source {base overlay : Tree} {path : List Tree}
    (hbase : base.DistinctKeys id) (hoverlay : overlay.DistinctKeys id)
    (h : (merge base overlay).valueAt path ≠ none) :
    base.valueAt path ≠ none ∨ overlay.valueAt path ≠ none := by
  induction path generalizing base overlay with
  | nil => simp
  | cons key path ih =>
      rcases merge_cases base overlay with ⟨entries, entries', rfl, rfl⟩ | heq | heq
      · rw [valueAt_merge_cons hbase hoverlay] at h
        rw [valueAt_mapping_cons, valueAt_mapping_cons]
        cases hb : valueUnder key entries with
        | none =>
            rw [hb] at h
            exact .inr h
        | some b =>
            cases ho : valueUnder key entries' with
            | none =>
                rw [hb, ho] at h
                exact .inl h
            | some o =>
                rw [hb, ho] at h
                exact ih (hbase.valueUnder hb) (hoverlay.valueUnder ho) h
      · exact .inl (heq ▸ h)
      · exact .inr (heq ▸ h)

/-- Merging is last writer wins at every path.  Merging the overlay once more, or a
document over itself, changes nothing, and not the order of the entries. -/
theorem merge_lastWriterWins {base overlay : Tree} (hbase : base.DistinctKeys id)
    (hoverlay : overlay.DistinctKeys id) :
    (∀ path, LastWriterWins base overlay (merge base overlay) path) ∧
      merge (merge base overlay) overlay = merge base overlay ∧ merge base base = base := by
  refine ⟨fun path => ?_, merge_merge hbase hoverlay, merge_self hbase⟩
  exact {
    overlay_wins := fun _ h hnull hmapping =>
      merge_overlay_wins hbase hoverlay h hnull hmapping
    base_stays := fun _ h hyields hv => merge_base_stays hbase hoverlay h hyields hv
    tag_lost := fun _ h hv hnull => merge_tag_lost hbase hoverlay h hv hnull
    has_source := merge_has_source hbase hoverlay }

/-- A service with an image and ports. -/
def shopBase : Tree :=
  .mapping [(.text "web", .mapping
    [(.text "image", .text "nginx"), (.text "ports", .sequence [.text "80"])])]

/-- The same service with another image and no ports, after a volume. -/
def shopOverlay : Tree :=
  .mapping [(.text "data", .mapping []), (.text "web", .mapping
    [(.text "ports", .null), (.text "image", .text "caddy")])]

theorem merge_lastWriterWins_shop :
    shopBase.DistinctKeys id ∧ shopOverlay.DistinctKeys id ∧
      (merge shopBase shopOverlay).valueAt [.text "web", .text "image"] = some (.text "caddy") ∧
      (merge shopBase shopOverlay).valueAt [.text "web", .text "ports"]
        = some (.sequence [.text "80"]) := by
  have hbase : shopBase.DistinctKeys id := by
    simp [shopBase, DistinctKeys.mapping_iff, DistinctKeys.sequence_iff, same]
  have hoverlay : shopOverlay.DistinctKeys id := by
    have hnull : null.DistinctKeys id := .scalar rfl
    simp [shopOverlay, DistinctKeys.mapping_iff, same, hnull]
  have hwins := (merge_lastWriterWins hbase hoverlay).1
  have hports : shopOverlay.Yields [.text "web", .text "ports"] := .cons rfl (.cons rfl yields_null)
  refine ⟨hbase, hoverlay, ?_, ?_⟩
  · exact (hwins _).overlay_wins _ rfl (by simp) rfl
  · exact (hwins _).base_stays _ rfl hports (.inr (by simp [untagged]))

/-- A null at a path of the overlay replaces a tagged null there, although that is neither
the null itself nor a mapping. -/
theorem merge_lastWriterWins_taggedNull :
    (mapping [(.text "a", .tagged "!t" .null)]).valueAt [.text "a"] = some (.tagged "!t" .null) ∧
      (mapping [(.text "a", .null)]).Yields [.text "a"] ∧
      (merge (.mapping [(.text "a", .tagged "!t" .null)]) (.mapping [(.text "a", .null)])).valueAt
        [.text "a"] = some .null :=
  ⟨rfl, .cons rfl yields_null, rfl⟩

end Tree
end Document
end Stackwright
