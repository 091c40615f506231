import Stackwright.Proofs.Document.Overlay
import Stackwright.Proofs.Template.Language

/-!
# Variables in merged documents

Expanding variables changes the string values of a document and nothing else.  The
*outline* of a tree is the tree with its string values emptied, and keeps everything
that a merge looks at: the keys, which values are mappings, and which are null below
their tags.  So a merge takes the same way through two documents before and after their
variables are expanded, and it makes no difference which of both comes first.

Main results:

- Theorem `expand_eq_ok_iff`: an expanded document has the same outline, and its string
  values are the expanded ones.
- Theorem `expand_merge`: documents can be expanded before or after they are merged.
-/

namespace Stackwright
namespace Document
namespace Tree

/-! ## Outlines and string values -/

mutual
/-- The tree with its string values emptied.  Strings in keys stay. -/
def outline : Tree → Tree
  | .text _ => .text ""
  | .sequence items => .sequence (itemsOutline items)
  | .mapping entries => .mapping (entriesOutline entries)
  | .tagged tag value => .tagged tag value.outline
  | t => t

/-- The outlines of the items of a sequence. -/
def itemsOutline : List Tree → List Tree
  | [] => []
  | item :: rest => item.outline :: itemsOutline rest

/-- The keys of a mapping with the outlines of the values. -/
def entriesOutline : List (Tree × Tree) → List (Tree × Tree)
  | [] => []
  | (key, value) :: rest => (key, value.outline) :: entriesOutline rest
end

mutual
/-- The string values of a tree, in the order in which they are written. -/
def texts : Tree → List String
  | .text value => [value]
  | .sequence items => itemsTexts items
  | .mapping entries => entriesTexts entries
  | .tagged _ value => value.texts
  | _ => []

/-- The string values of the items of a sequence. -/
def itemsTexts : List Tree → List String
  | [] => []
  | item :: rest => item.texts ++ itemsTexts rest

/-- The string values under the keys of a mapping. -/
def entriesTexts : List (Tree × Tree) → List String
  | [] => []
  | (_, value) :: rest => value.texts ++ entriesTexts rest
end

/-- A string value that a template is expanded to. -/
def ExpandsTo (lookup : Template.Lookup) (template value : String) : Prop :=
  Template.expand lookup template = .ok value

/-- A tree with the outline of another one and with its string values expanded. -/
def IsExpanded (lookup : Template.Lookup) (t u : Tree) : Prop :=
  u.outline = t.outline ∧ List.Forall₂ (ExpandsTo lookup) t.texts u.texts

/-- The outline of a sequence has the outlines of its items. -/
theorem outline_sequence (items : List Tree) :
    (sequence items).outline = .sequence (items.map outline) := by
  have hitems : itemsOutline items = items.map outline := by
    induction items with
    | nil => rfl
    | cons item rest ih => rw [itemsOutline, ih, List.map_cons]
  rw [outline, hitems]

/-- The outline of a mapping has its keys and the outlines of its values. -/
theorem outline_mapping (entries : List (Tree × Tree)) :
    (mapping entries).outline = .mapping (entries.map fun e => (e.1, e.2.outline)) := by
  have hentries : entriesOutline entries = entries.map fun e => (e.1, e.2.outline) := by
    induction entries with
    | nil => rfl
    | cons e rest ih => rw [entriesOutline, ih, List.map_cons]
  rw [outline, hentries]

/-- The texts of a sequence are those of its items. -/
theorem texts_sequence (items : List Tree) : (sequence items).texts = items.flatMap texts := by
  rw [texts]
  induction items with
  | nil => rfl
  | cons item rest ih => rw [itemsTexts, ih, List.flatMap_cons]

/-- The texts of a mapping are those of its values; its keys do not count. -/
theorem texts_mapping (entries : List (Tree × Tree)) :
    (mapping entries).texts = entries.flatMap fun e => e.2.texts := by
  rw [texts]
  induction entries with
  | nil => rfl
  | cons e rest ih => rw [entriesTexts, ih, List.flatMap_cons]

/-- Emptied string values are as many as before. -/
theorem length_texts_outline (t : Tree) : t.outline.texts.length = t.texts.length := by
  induction t using memberInduction with
  | scalar t leaf =>
      cases t with
      | null | bool value | int value | float value | text value => rfl
      | _ => cases leaf
  | sequence items ih =>
      rw [outline_sequence, texts_sequence, texts_sequence, List.flatMap_map, List.length_flatMap,
        List.length_flatMap]
      exact congrArg List.sum (List.map_congr_left ih)
  | mapping entries ih =>
      rw [outline_mapping, texts_mapping, texts_mapping, List.flatMap_map, List.length_flatMap,
        List.length_flatMap]
      exact congrArg List.sum (List.map_congr_left fun e he => (ih e he).2)
  | tagged tag value ih => exact ih

/-- Trees with the same outline have as many texts. -/
theorem length_texts_eq {t u : Tree} (h : u.outline = t.outline) :
    t.texts.length = u.texts.length := by
  rw [← length_texts_outline t, ← length_texts_outline u, h]

/-! ## What merging looks at -/

/-- An outline shows what is a mapping. -/
theorem isMapping_outline (t : Tree) : t.outline.isMapping = t.isMapping := by
  cases t <;> rfl

/-- An outline shows what is null. -/
theorem isNull_untagged_outline (t : Tree) :
    t.outline.untagged.isNull = t.untagged.isNull := by
  induction t using memberInduction with
  | scalar t leaf =>
      cases t with
      | null | bool value | int value | float value | text value => rfl
      | _ => cases leaf
  | sequence items _ | mapping entries _ => rfl
  | tagged tag value ih => exact ih

/-! ## Expanded trees -/

section Expanding

variable {lookup : Template.Lookup}

/-- A text is expanded to the text that its template expands to. -/
theorem expand_text_iff {template : String} {u : Tree} :
    (text template).expand lookup = .ok u ↔ ∃ value, ExpandsTo lookup template value ∧
      .text value = u := by
  simp only [expand, bind_eq_ok_iff, pure_eq_ok_iff, ExpandsTo]

/-- A sequence is expanded item by item. -/
theorem expand_sequence_iff {items : List Tree} {u : Tree} :
    (sequence items).expand lookup = .ok u ↔ ∃ items',
      List.Forall₂ (fun a b => a.expand lookup = .ok b) items items' ∧ .sequence items' = u := by
  simp only [expand, expandItems_eq, bind_eq_ok_iff, pure_eq_ok_iff, mapM_eq_ok_iff_forall₂]

theorem expandEntry_eq_ok_iff {e f : Tree × Tree} :
    expandEntry lookup e = .ok f ↔ f.1 = e.1 ∧ e.2.expand lookup = .ok f.2 := by
  constructor
  · exact expandEntry_eq_ok
  · rintro ⟨hkey, hvalue⟩
    rw [expandEntry, hvalue, ← hkey]
    rfl

/-- A mapping is expanded value by value and keeps its keys. -/
theorem expand_mapping_iff {entries : List (Tree × Tree)} {u : Tree} :
    (mapping entries).expand lookup = .ok u ↔ ∃ entries',
      List.Forall₂ (fun e f => f.1 = e.1 ∧ e.2.expand lookup = .ok f.2) entries entries' ∧
        .mapping entries' = u := by
  simp only [expand, expandEntries_eq, bind_eq_ok_iff, pure_eq_ok_iff, mapM_eq_ok_iff_forall₂,
    expandEntry_eq_ok_iff]

theorem expand_tagged_iff {tag : String} {value u : Tree} :
    (tagged tag value).expand lookup = .ok u ↔ ∃ value', value.expand lookup = .ok value' ∧
      .tagged tag value' = u := by
  simp only [expand, bind_eq_ok_iff, pure_eq_ok_iff]

/-! ## Trees with expanded string values -/

theorem isExpanded_text_iff {template : String} {u : Tree} :
    IsExpanded lookup (.text template) u ↔ ∃ value, ExpandsTo lookup template value ∧
      .text value = u := by
  constructor
  · rintro ⟨houtline, htexts⟩
    cases u with
    | text value =>
        cases htexts with
        | cons hvalue _ => exact ⟨value, hvalue, rfl⟩
    | _ => simp [outline] at houtline
  · rintro ⟨value, hvalue, rfl⟩
    exact ⟨rfl, .cons hvalue .nil⟩

/-- The outline and the texts of a sequence are expanded item by item. -/
theorem isExpanded_sequence_iff {items : List Tree} {u : Tree} :
    IsExpanded lookup (.sequence items) u ↔ ∃ items',
      List.Forall₂ (IsExpanded lookup) items items' ∧ .sequence items' = u := by
  have hitems : ∀ items', List.Forall₂ (IsExpanded lookup) items items' ↔
      items'.map outline = items.map outline ∧
        List.Forall₂ (ExpandsTo lookup) (items.flatMap texts) (items'.flatMap texts) := by
    intro items'
    have hlen : ∀ a b : Tree, b.outline = a.outline → a.texts.length = b.texts.length :=
      fun _ _ => length_texts_eq
    rw [← forall₂_eq_iff, ← forall₂_flatMap_iff hlen]
    rfl
  simp only [hitems]
  constructor
  · rintro ⟨houtline, htexts⟩
    cases u with
    | sequence items' =>
        rw [outline_sequence, outline_sequence, sequence.injEq] at houtline
        rw [texts_sequence, texts_sequence] at htexts
        exact ⟨items', ⟨houtline, htexts⟩, rfl⟩
    | _ => simp [outline] at houtline
  · rintro ⟨items', ⟨houtline, htexts⟩, rfl⟩
    rw [IsExpanded, outline_sequence, outline_sequence, texts_sequence, texts_sequence, houtline]
    exact ⟨rfl, htexts⟩

/-- The outline and the texts of a mapping are expanded value by value. -/
theorem isExpanded_mapping_iff {entries : List (Tree × Tree)} {u : Tree} :
    IsExpanded lookup (.mapping entries) u ↔ ∃ entries',
      List.Forall₂ (fun e f => f.1 = e.1 ∧ IsExpanded lookup e.2 f.2) entries entries' ∧
        .mapping entries' = u := by
  have hentries : ∀ entries' : List (Tree × Tree),
      List.Forall₂ (fun e f => f.1 = e.1 ∧ IsExpanded lookup e.2 f.2) entries entries' ↔
        (entries'.map fun f => (f.1, f.2.outline)) = (entries.map fun e => (e.1, e.2.outline)) ∧
          List.Forall₂ (ExpandsTo lookup) (entries.flatMap fun e => e.2.texts)
            (entries'.flatMap fun f => f.2.texts) := by
    intro entries'
    have hlen : ∀ e f : Tree × Tree, (f.1, f.2.outline) = (e.1, e.2.outline) →
        e.2.texts.length = f.2.texts.length :=
      fun _ _ h => length_texts_eq (Prod.mk.inj h).2
    rw [← forall₂_eq_iff, ← forall₂_flatMap_iff hlen]
    refine forall₂_congr_of_mem fun e _ f => ?_
    rw [IsExpanded, Prod.mk.injEq, and_assoc]
  simp only [hentries]
  constructor
  · rintro ⟨houtline, htexts⟩
    cases u with
    | mapping entries' =>
        rw [outline_mapping, outline_mapping, mapping.injEq] at houtline
        rw [texts_mapping, texts_mapping] at htexts
        exact ⟨entries', ⟨houtline, htexts⟩, rfl⟩
    | _ => simp [outline] at houtline
  · rintro ⟨entries', ⟨houtline, htexts⟩, rfl⟩
    rw [IsExpanded, outline_mapping, outline_mapping, texts_mapping, texts_mapping, houtline]
    exact ⟨rfl, htexts⟩

theorem isExpanded_tagged_iff {tag : String} {value u : Tree} :
    IsExpanded lookup (.tagged tag value) u ↔ ∃ value', IsExpanded lookup value value' ∧
      .tagged tag value' = u := by
  constructor
  · rintro ⟨houtline, htexts⟩
    cases u with
    | tagged tag' value' =>
        rw [outline, outline, tagged.injEq] at houtline
        exact ⟨value', ⟨houtline.2, htexts⟩, by rw [houtline.1]⟩
    | _ => simp [outline] at houtline
  · rintro ⟨value', ⟨houtline, htexts⟩, rfl⟩
    exact ⟨congrArg (tagged tag) houtline, htexts⟩

/-- An expanded document has the same outline, and its string values are the expanded ones. -/
theorem expand_eq_ok_iff {t u : Tree} : t.expand lookup = .ok u ↔ IsExpanded lookup t u := by
  induction t using memberInduction generalizing u with
  | scalar t leaf =>
      cases t with
      | text template => rw [expand_text_iff, isExpanded_text_iff]
      | null | bool value | int value | float value =>
          constructor
          · intro h
            cases h
            exact ⟨rfl, .nil⟩
          · rintro ⟨houtline, -⟩
            cases u with
            | _ => simp_all [outline, expand]
      | _ => cases leaf
  | sequence items ih =>
      rw [expand_sequence_iff, isExpanded_sequence_iff]
      simp only [forall₂_congr_of_mem fun a ha b => ih a ha (u := b)]
  | mapping entries ih =>
      rw [expand_mapping_iff, isExpanded_mapping_iff]
      have hentry : ∀ e ∈ entries, ∀ f : Tree × Tree,
          (f.1 = e.1 ∧ e.2.expand lookup = .ok f.2) ↔
            f.1 = e.1 ∧ IsExpanded lookup e.2 f.2 := by
        intro e he f
        rw [(ih e he).2]
      simp only [forall₂_congr_of_mem hentry]
  | tagged tag value ih =>
      rw [expand_tagged_iff, isExpanded_tagged_iff]
      simp only [ih]

/-! ## Expanding and merging -/

/-- Entries whose values are expanded one by one, under the same keys. -/
def EntriesExpand (lookup : Template.Lookup) : List (Tree × Tree) → List (Tree × Tree) → Prop :=
  List.Forall₂ fun e f => f.1 = e.1 ∧ e.2.expand lookup = .ok f.2

/-- A change under a key can be made before or after the values are expanded. -/
theorem EntriesExpand.upsert {key fresh fresh' : Tree} {change change' : Tree → Tree}
    {entries entries' : List (Tree × Tree)} (h : EntriesExpand lookup entries entries')
    (hfresh : fresh.expand lookup = .ok fresh')
    (hchange : ∀ v v', v.expand lookup = .ok v' → (change v).expand lookup = .ok (change' v')) :
    EntriesExpand lookup (upsert key change fresh entries)
      (upsert key change' fresh' entries') := by
  induction h with
  | nil => exact .cons ⟨rfl, hfresh⟩ .nil
  | @cons e f rest rest' hhead hrest ih =>
      rw [Tree.upsert, Tree.upsert, hhead.1]
      cases same e.1 key with
      | true => exact .cons ⟨rfl, hchange _ _ hhead.2⟩ hrest
      | false => exact .cons ⟨rfl, hhead.2⟩ ih

/-- Entries can be put over others before or after the values are expanded, if that is so for
each of their values. -/
theorem EntriesExpand.mergeEntries {base base' overlay overlay' : List (Tree × Tree)}
    (hbase : EntriesExpand lookup base base') (hoverlay : EntriesExpand lookup overlay overlay')
    (hvalues : ∀ e ∈ overlay, ∀ v v' u', v.expand lookup = .ok v' → e.2.expand lookup = .ok u' →
      (merge v e.2).expand lookup = .ok (merge v' u')) :
    EntriesExpand lookup (mergeEntries base overlay) (mergeEntries base' overlay') := by
  induction hoverlay generalizing base base' with
  | nil =>
      rw [Tree.mergeEntries, Tree.mergeEntries]
      exact hbase
  | @cons e f rest rest' hhead _ ih =>
      obtain ⟨key, value⟩ := e
      obtain ⟨key', value'⟩ := f
      obtain ⟨rfl, hvalue⟩ := hhead
      obtain ⟨hfirst, hrest⟩ := List.forall_mem_cons.1 hvalues
      rw [Tree.mergeEntries, Tree.mergeEntries]
      refine ih (hbase.upsert hvalue fun v v' hv => ?_) hrest
      exact hfirst v v' value' hv hvalue

/-- A document that is expanded before it is merged gives what it gives if it is expanded
after. -/
theorem expand_merge_of_eq {base overlay base' overlay' : Tree}
    (hbase : base.expand lookup = .ok base') (hoverlay : overlay.expand lookup = .ok overlay') :
    (merge base overlay).expand lookup = .ok (merge base' overlay') := by
  induction overlay using memberInduction generalizing base base' overlay' with
  | scalar overlay leaf =>
      cases overlay with
      | null =>
          cases hoverlay
          have hnull : base'.untagged.isNull = base.untagged.isNull := by
            rw [← isNull_untagged_outline, (expand_eq_ok_iff.1 hbase).1, isNull_untagged_outline]
          rw [merge, merge, hnull]
          split
          · rfl
          · exact hbase
      | text template =>
          obtain ⟨value, -, rfl⟩ := expand_text_iff.1 hoverlay
          exact hoverlay
      | bool value | int value | float value =>
          cases hoverlay
          rfl
      | _ => cases leaf
  | sequence items _ =>
      obtain ⟨items', -, rfl⟩ := expand_sequence_iff.1 hoverlay
      exact hoverlay
  | mapping overlay ih =>
      obtain ⟨overlay', hentries, rfl⟩ := expand_mapping_iff.1 hoverlay
      cases hkind : base.isMapping with
      | false =>
          have hkind' : base'.isMapping = false := by
            rw [← isMapping_outline, (expand_eq_ok_iff.1 hbase).1, isMapping_outline, hkind]
          rwa [merge_mapping_of_not hkind, merge_mapping_of_not hkind']
      | true =>
          obtain ⟨entries, rfl⟩ := exists_of_isMapping hkind
          obtain ⟨entries', hbase', rfl⟩ := expand_mapping_iff.1 hbase
          rw [merge, merge]
          refine expand_mapping_iff.2 ⟨_, ?_, rfl⟩
          refine EntriesExpand.mergeEntries hbase' hentries fun e he v v' u' hv hu => ?_
          exact (ih e he).2 hv hu
  | tagged tag value _ =>
      obtain ⟨value', -, rfl⟩ := expand_tagged_iff.1 hoverlay
      exact hoverlay

end Expanding

/-- Expanding the variables of a document changes its string values and nothing else: each is
expanded, and one without a dollar sign stays as it is.  Documents whose variables can be
expanded can be merged before or after it. -/
theorem expand_merge (lookup : Template.Lookup) :
    (∀ t u : Tree, t.expand lookup = .ok u ↔ IsExpanded lookup t u) ∧
    (∀ value : String, '$' ∉ value.toList → ExpandsTo lookup value value) ∧
    ∀ base overlay base' overlay' : Tree, base.expand lookup = .ok base' →
      overlay.expand lookup = .ok overlay' →
        (merge base overlay).expand lookup = .ok (merge base' overlay') :=
  ⟨fun _ _ => expand_eq_ok_iff, fun _ => Template.expand_of_notMem lookup,
    fun _ _ _ _ => expand_merge_of_eq⟩

/-- A service with an image and a port. -/
def webTree (image port : String) : Tree :=
  .mapping [(.text "web", .mapping
    [(.text "image", .text image), (.text "ports", .sequence [.text port])])]

/-- The same service with another image only. -/
def webOverride (image : String) : Tree :=
  .mapping [(.text "web", .mapping [(.text "ports", .null), (.text "image", .text image)])]

/-- The value of the one variable that is set. -/
def tagLookup (name : String) : Option String :=
  if name = "TAG" then some "1.27" else none

theorem expand_merge_web :
    (webTree "nginx:$TAG" "$\x7bPORT:-80\x7d").expand tagLookup
        = .ok (webTree "nginx:1.27" "80") ∧
      (webOverride "caddy:$TAG").expand tagLookup = .ok (webOverride "caddy:1.27") ∧
      (merge (webTree "nginx:$TAG" "$\x7bPORT:-80\x7d") (webOverride "caddy:$TAG")).expand
        tagLookup = .ok (webTree "caddy:1.27" "80") := by
  have hbase : (webTree "nginx:$TAG" "$\x7bPORT:-80\x7d").expand tagLookup
      = .ok (webTree "nginx:1.27" "80") := by cbv
  have hoverlay : (webOverride "caddy:$TAG").expand tagLookup
      = .ok (webOverride "caddy:1.27") := by cbv
  exact ⟨hbase, hoverlay, (expand_merge tagLookup).2.2 _ _ _ _ hbase hoverlay⟩

end Tree
end Document
end Stackwright
