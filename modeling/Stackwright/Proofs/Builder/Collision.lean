import Stackwright.Builder.Assembly
import Stackwright.Proofs.Arrangement

/-!
# Collisions of service names

The services of a project are walked in ascending order of their names, and the
walk stops at the first one whose identifier was seen before.

Main results:

- Theorem `collision_eq_none_iff`: there is no collision exactly if no two
  services share an identifier.
- Theorem `collision_spec`: the collision that is found is the one whose second
  name is least.
-/

namespace Stackwright

open Program

/-- A walk finds nothing exactly if the identifiers are new and differ from each other. -/
theorem collisionFrom_eq_none_iff (seen codes : List ServiceCode) :
    collisionFrom seen codes = none ↔
      (∀ c ∈ codes, ∀ d ∈ seen, d.ident ≠ c.ident) ∧
        codes.Pairwise fun a b => a.ident ≠ b.ident := by
  induction codes generalizing seen with
  | nil => simp [collisionFrom]
  | cons c rest ih =>
      rw [collisionFrom, List.pairwise_cons, List.forall_mem_cons]
      cases hfind : seen.find? (·.ident = c.ident) with
      | some first =>
          have hident : first.ident = c.ident := by
            simpa using List.find?_some hfind
          have hmem := List.mem_of_find?_eq_some hfind
          simp only [reduceCtorEq, false_iff]
          intro h
          exact h.1.1 first hmem hident
      | none =>
          have hnew : ∀ d ∈ seen, d.ident ≠ c.ident := by
            simpa using hfind
          rw [ih]
          constructor
          · rintro ⟨hseen, hrest⟩
            refine ⟨⟨hnew, fun b hb d hd => hseen b hb d (List.mem_cons_of_mem _ hd)⟩, ?_, hrest⟩
            exact fun b hb => hseen b hb c List.mem_cons_self
          · rintro ⟨⟨-, hseen⟩, hhead, hrest⟩
            refine ⟨fun b hb d hd => ?_, hrest⟩
            rcases List.mem_cons.1 hd with rfl | hd
            · exact hhead b hb
            · exact hseen b hb d hd

/-- A collision is found at the first service whose identifier was seen before. -/
theorem collisionFrom_eq_some {seen codes : List ServiceCode} {found : NameCollision}
    (h : collisionFrom seen codes = some found) :
    ∃ before second after first, codes = before ++ second :: after ∧
      collisionFrom seen before = none ∧ (first ∈ seen ∨ first ∈ before) ∧
      first.ident = second.ident ∧ found = ⟨second.ident, first.name, second.name⟩ := by
  induction codes generalizing seen with
  | nil => cases h
  | cons c rest ih =>
      rw [collisionFrom] at h
      cases hfind : seen.find? (·.ident = c.ident) with
      | some first =>
          have hident : first.ident = c.ident := by
            simpa using List.find?_some hfind
          have hmem := List.mem_of_find?_eq_some hfind
          rw [hfind] at h
          cases h
          exact ⟨[], c, rest, first, rfl, rfl, .inl hmem, hident, rfl⟩
      | none =>
          rw [hfind] at h
          obtain ⟨before, second, after, first, hrest, hnone, hmem, hident, hfound⟩ := ih h
          refine ⟨c :: before, second, after, first, by rw [hrest, List.cons_append], ?_, ?_,
            hident, hfound⟩
          · rw [collisionFrom, hfind]
            exact hnone
          · rcases hmem with hmem | hmem
            · rcases List.mem_cons.1 hmem with rfl | hmem
              · exact .inr List.mem_cons_self
              · exact .inl hmem
            · exact .inr (List.mem_cons_of_mem _ hmem)

namespace Project

/-- Without services, none is stored under another name. -/
theorem NamesServices.empty : ({} : Project).NamesServices := by
  intro entry hentry
  exact absurd hentry List.not_mem_nil

/-- Adding a service keeps every service under its own name. -/
theorem NamesServices.withService {p : Project} (h : p.NamesServices) (service : Service) :
    (p.withService service).NamesServices := by
  intro entry hentry
  rcases Dict.mem_insertEntry hentry with rfl | hentry
  · rfl
  · exact h entry hentry

/-- Two services of a project share an identifier, in the order of their names. -/
def SharesIdentifier (p : Project) (first second : String) : Prop :=
  first ∈ p.services.keys ∧ second ∈ p.services.keys ∧ first < second
    ∧ exportedString first = exportedString second

instance (p : Project) (first second : String) : Decidable (p.SharesIdentifier first second) :=
  inferInstanceAs (Decidable (_ ∧ _ ∧ _ ∧ _))

/-- The code of a service has the identifier of its name. -/
theorem ident_of_mem_serviceCodes {p : Project} {c : ServiceCode} (h : c ∈ p.serviceCodes) :
    c.ident = exportedString c.name := by
  obtain ⟨s, -, rfl⟩ := List.mem_map.1 h
  rfl

/-- The names of the services are the keys they are stored under. -/
theorem map_name_serviceCodes {p : Project} (hnames : p.NamesServices) :
    p.serviceCodes.map (·.name) = p.services.keys := by
  rw [serviceCodes, sortedServices_eq hnames, Dict.keys, List.map_map, List.map_map]
  exact List.map_congr_left fun entry hentry => hnames entry (Dict.mem_sorted.1 hentry)

/-- The services of a project come in ascending order of their names. -/
theorem serviceCodes_pairwise {p : Project} (hnames : p.NamesServices) :
    p.serviceCodes.Pairwise fun a b => a.name < b.name := by
  have hkeys : p.services.keys.Pairwise (· < ·) :=
    List.pairwise_map.2 p.services.pairwise_sorted
  rw [← map_name_serviceCodes hnames] at hkeys
  exact List.pairwise_map.1 hkeys

/-- Services of a project that share an identifier, as code. -/
theorem sharesIdentifier_iff {p : Project} (hnames : p.NamesServices) {first second : String} :
    p.SharesIdentifier first second ↔
      ∃ a ∈ p.serviceCodes, ∃ b ∈ p.serviceCodes,
        a.name = first ∧ b.name = second ∧ first < second ∧ a.ident = b.ident := by
  rw [SharesIdentifier, ← map_name_serviceCodes hnames]
  constructor
  · rintro ⟨hfirst, hsecond, hlt, hident⟩
    obtain ⟨a, ha, rfl⟩ := List.mem_map.1 hfirst
    obtain ⟨b, hb, rfl⟩ := List.mem_map.1 hsecond
    refine ⟨a, ha, b, hb, rfl, rfl, hlt, ?_⟩
    rw [ident_of_mem_serviceCodes ha, ident_of_mem_serviceCodes hb, hident]
  · rintro ⟨a, ha, b, hb, rfl, rfl, hlt, hident⟩
    rw [ident_of_mem_serviceCodes ha, ident_of_mem_serviceCodes hb] at hident
    exact ⟨List.mem_map.2 ⟨a, ha, rfl⟩, List.mem_map.2 ⟨b, hb, rfl⟩, hlt, hident⟩

/-- Two members of an ordered list with different identifiers throughout, one of them first. -/
theorem ident_ne_of_lt {codes : List ServiceCode}
    (hnames : codes.Pairwise fun a b => a.name < b.name)
    (hidents : codes.Pairwise fun a b => a.ident ≠ b.ident) {a b : ServiceCode} (ha : a ∈ codes)
    (hb : b ∈ codes) (hlt : a.name < b.name) : a.ident ≠ b.ident := by
  induction codes with
  | nil => cases ha
  | cons c rest ih =>
      obtain ⟨hname, hnames⟩ := List.pairwise_cons.1 hnames
      obtain ⟨hident, hidents⟩ := List.pairwise_cons.1 hidents
      rcases List.mem_cons.1 ha with rfl | harest
      · rcases List.mem_cons.1 hb with rfl | hbrest
        · exact absurd hlt (String.lt_irrefl _)
        · exact hident b hbrest
      · rcases List.mem_cons.1 hb with rfl | hbrest
        · exact absurd hlt (String.lt_asymm (hname a harest))
        · exact ih hnames hidents harest hbrest

/-- There is no collision exactly if no two services share an identifier. -/
theorem collision_eq_none_iff {p : Project} (hnames : p.NamesServices) :
    collision? p.serviceCodes = none ↔ ¬ ∃ first second, p.SharesIdentifier first second := by
  have hsorted := serviceCodes_pairwise hnames
  rw [collision?, collisionFrom_eq_none_iff]
  constructor
  · rintro ⟨-, hidents⟩ ⟨first, second, hshares⟩
    obtain ⟨a, ha, b, hb, rfl, rfl, hlt, hident⟩ := (sharesIdentifier_iff hnames).1 hshares
    exact ident_ne_of_lt hsorted hidents ha hb hlt hident
  · intro hnone
    refine ⟨by simp, ?_⟩
    refine hsorted.imp_of_mem fun {a b} ha hb hlt hident => hnone ⟨a.name, b.name, ?_⟩
    exact (sharesIdentifier_iff hnames).2 ⟨a, ha, b, hb, rfl, rfl, hlt, hident⟩

/-- The collision that is found is the one whose second name is least, and its first name is the
only one that the second name shares its identifier with. -/
theorem collision_spec {p : Project} (hnames : p.NamesServices) {found : NameCollision}
    (h : collision? p.serviceCodes = some found) :
    p.SharesIdentifier found.first found.second ∧
      found.identifier = exportedString found.second ∧
      (∀ first second, p.SharesIdentifier first second → found.second ≤ second) ∧
      ∀ first, p.SharesIdentifier first found.second → first = found.first := by
  obtain ⟨before, second, after, first, hcodes, hnone, hmem, hident, rfl⟩ :=
    collisionFrom_eq_some h
  have hfirst : first ∈ before := by
    rcases hmem with hmem | hmem
    · cases hmem
    · exact hmem
  have hidents := ((collisionFrom_eq_none_iff [] before).1 hnone).2
  have hsorted := serviceCodes_pairwise hnames
  rw [hcodes, List.pairwise_append] at hsorted
  obtain ⟨hbefore, hafter, hacross⟩ := hsorted
  have hmemFirst : first ∈ p.serviceCodes := by simp [hcodes, hfirst]
  have hmemSecond : second ∈ p.serviceCodes := by simp [hcodes]
  -- A service with a smaller name than the second one comes before it.
  have hbound : ∀ c ∈ p.serviceCodes, c.name < second.name → c ∈ before := by
    intro c hc hlt
    rw [hcodes, List.mem_append, List.mem_cons] at hc
    rcases hc with hc | rfl | hc
    · exact hc
    · exact absurd hlt (String.lt_irrefl _)
    · exact absurd hlt (String.lt_asymm ((List.pairwise_cons.1 hafter).1 c hc))
  refine ⟨?_, ident_of_mem_serviceCodes hmemSecond, ?_, ?_⟩
  · refine (sharesIdentifier_iff hnames).2
      ⟨first, hmemFirst, second, hmemSecond, rfl, rfl, ?_, hident⟩
    exact hacross first hfirst second List.mem_cons_self
  · intro x y hshares
    obtain ⟨a, ha, b, hb, rfl, rfl, hlt, hsame⟩ := (sharesIdentifier_iff hnames).1 hshares
    refine String.not_lt.1 fun hless => ?_
    exact ident_ne_of_lt hbefore hidents (hbound a ha (String.lt_trans hlt hless))
      (hbound b hb hless) hlt hsame
  · intro x hshares
    obtain ⟨a, ha, b, hb, rfl, hname, hlt, hsame⟩ := (sharesIdentifier_iff hnames).1 hshares
    have hident' : a.ident = first.ident := by
      rw [hsame, hident, ident_of_mem_serviceCodes hb, ident_of_mem_serviceCodes hmemSecond, hname]
    have ha := hbound a ha hlt
    by_cases hless : a.name < first.name
    · exact absurd hident' (ident_ne_of_lt hbefore hidents ha hfirst hless)
    · refine Decidable.byContradiction fun hne => ?_
      have hgreater := string_lt_of_le_of_ne (String.not_lt.1 hless) (Ne.symm hne)
      exact ident_ne_of_lt hbefore hidents hfirst ha hgreater hident'.symm

end Project
end Stackwright
