import Stackwright.Decode.Project
import Stackwright.Proofs.Decode.OrderFree

/-!
# Projects in any order

Every reader of a descriptor is put together from order-free parts, so a project does
not depend on the order in which the entries of mappings are written, but for the order
in which its dictionaries are walked.  Each reader gets one instance, which has to be
looked at again only if this reader changes.

Main results:

- Theorem `agree_project`: shuffled trees describe alike projects or none.
-/

namespace Stackwright
namespace Decode

open Reader

-- A record takes a few instances for each field, its reader and its setter; a service has several hundred.
set_option synthInstance.maxSize 1024

/-! ## Scalars -/

instance : OrderFree scalar := by unfold scalar; infer_instance

variable {α : Type} [Arrange α]

instance (r : Reader α) [Plain α] [OrderFree r] : OrderFree (oneOrMany r) := by
  unfold oneOrMany; infer_instance

instance : OrderFree texts := by unfold texts; infer_instance

instance : OrderFree optText := by unfold optText; infer_instance

instance : OrderFree optFloat := by unfold optFloat; infer_instance

instance : OrderFree optDuration := by unfold optDuration; infer_instance

instance : OrderFree optBytes := by unfold optBytes; infer_instance

instance : OrderFree bytes := by unfold bytes; infer_instance

instance : OrderFree optFileMode := by unfold optFileMode; infer_instance

instance : OrderFree optDeviceCount := by unfold optDeviceCount; infer_instance

/-! ## Lists and mappings -/

instance : OrderFree settings := by unfold settings; infer_instance

instance : OrderFree labels := by unfold labels; infer_instance

instance : OrderFree hosts := by unfold hosts; infer_instance

instance (r : Reader α) [OrderFree r] : OrderFree (named r) := by
  unfold named; infer_instance

instance (shapes : List (Reader α)) [AllOrderFree shapes] :
    OrderFree (entriesOf shapes) := by
  unfold entriesOf; infer_instance

instance : OrderFree external := by
  -- A mapping says that something exists outside, whatever it holds.
  have hmapping : OrderFree fun (_ : Place) (t : Document.Tree) => match t with
      | .mapping _ => Except.ok true
      | _ => .error Fault.shape := by
    refine ⟨fun place t u h => ?_⟩
    obtain ⟨-, rfl⟩ | ⟨as, bs, rfl, rfl, -⟩ | ⟨es, gs, rfl, rfl⟩ | ⟨tag, a, b, rfl, rfl⟩ := h.cases
    all_goals exact agree_of_eq rfl
  unfold external
  infer_instance

/-! ## Builds -/

instance : OrderFree secrets := by unfold secrets secretFields; infer_instance

instance : FieldsOrderFree boundFields := by unfold boundFields; infer_instance

instance : OrderFree boundPair where
  agree place t u h := by
    obtain ⟨-, rfl⟩ | ⟨as, bs, rfl, rfl, -⟩ | ⟨es, gs, rfl, rfl⟩ | ⟨tag, a, b, rfl, rfl⟩ := h.cases
    · exact agree_of_eq rfl
    · exact .error _ _
    · exact OrderFree.agree (r := record boundFields {}) place _ _ h
    · exact .error _ _

instance : OrderFree ulimit := by unfold ulimit; infer_instance

/-- Keys that are sorted by their ids do not depend on how the dictionary is walked that they
come from. -/
instance : OrderFree ((dict (optional text)).map fun keys =>
    sortBy SshKey.id (keys.entries.map fun e => { id := e.1, path := e.2.getD "" })) := by
  refine .map fun a b hab => congrArg arranged ?_
  have hkeys (d : Dict (Option String)) :
      (d.entries.map fun e => SshKey.mk e.1 (e.2.getD "")).map SshKey.id = d.entries.map Prod.fst := by
    rw [List.map_map]
    rfl
  rw [Dict.alike_iff_perm] at hab
  exact sortBy_eq_of_perm (hab.map _) (by rw [hkeys]; exact a.distinct)

instance : OrderFree sshKeys := by unfold sshKeys; infer_instance

instance : OrderFree build := by unfold build buildFields; infer_instance

/-! ## Deployments -/

instance : OrderFree optCount := by unfold optCount; infer_instance

instance : FieldsOrderFree updateFields := by unfold updateFields; infer_instance

instance : FieldsOrderFree resourceFields := by
  unfold resourceFields deviceRequestFields; infer_instance

instance : FieldsOrderFree deployFields := by
  unfold deployFields resourcesFields; infer_instance

/-! ## Networks and volumes -/

instance : OrderFree network := by
  unfold network networkFields ipamFields poolFields; infer_instance

instance : OrderFree volume := by unfold volume volumeFields; infer_instance

/-! ## Services -/

instance : OrderFree command := by unfold command; infer_instance

instance : OrderFree healthTest := by unfold healthTest; infer_instance

instance : OrderFree ports := by unfold ports portFields; infer_instance

instance : OrderFree mounts := by unfold mounts mountFields tmpfsFields; infer_instance

instance : OrderFree devices := by unfold devices deviceFields; infer_instance

instance : OrderFree throttles := by unfold throttles throttleFields; infer_instance

instance : OrderFree dependencies := by unfold dependencies dependencyFields; infer_instance

instance : OrderFree envFiles := by unfold envFiles envFileFields; infer_instance

instance : FieldsOrderFree endpointFields := by unfold endpointFields; infer_instance

instance : FieldsOrderFree serviceFields := by
  unfold serviceFields healthCheckFields loggingFields blockIoFields developFields watchFields
  -- The literal of a long list is elaborated in blocks, each bound to a name.
  dsimp only
  infer_instance

instance : OrderFree service := by unfold service; infer_instance

/-! ## Descriptors -/

instance : Arrange Descriptor :=
  ⟨fun d =>
    { d with
      services := arranged d.services
      networks := arranged d.networks
      volumes := arranged d.volumes }⟩

instance : FieldsOrderFree descriptorFields := by unfold descriptorFields; infer_instance

instance : OrderFree descriptor := by unfold descriptor; infer_instance

/-- Bringing a service into normal form keeps what its dictionaries hold. -/
theorem arranged_normalizeService (name : String) (s : Service) :
    arranged (normalizeService name s) = normalizeService name (arranged s) := rfl

/-- Descriptors are alike if their parts are. -/
theorem Descriptor.alike_iff {d d' : Descriptor} :
    Alike d d' ↔ d.name = d'.name ∧ Alike d.services d'.services ∧ Alike d.networks d'.networks
      ∧ Alike d.volumes d'.volumes := by
  change Descriptor.mk .. = Descriptor.mk .. ↔ _
  rw [Descriptor.mk.injEq]
  rfl

/-- Alike descriptors describe alike projects. -/
theorem Descriptor.alike_project {d d' : Descriptor} (h : Alike d d') :
    Alike d.project d'.project := by
  obtain ⟨hname, hservices, hnetworks, hvolumes⟩ := alike_iff.1 h
  refine Project.alike_iff.2 ⟨congrArg (·.getD "") hname, ?_, ?_, ?_⟩
  · refine Dict.alike_map hservices fun key x y hxy => ?_
    rw [Alike, arranged_normalizeService, arranged_normalizeService, hxy.getD {}]
  · exact Dict.alike_map hnetworks fun _ _ _ hxy => hxy.getD {}
  · exact Dict.alike_map hvolumes fun _ _ _ hxy => hxy.getD {}

/-- The services of a project that is described are stored under their own names. -/
theorem Descriptor.namesServices_project (d : Descriptor) : d.project.NamesServices := by
  intro entry hentry
  obtain ⟨written, -, rfl⟩ := List.mem_map.1 hentry
  rfl

/-- Shuffled trees describe alike projects or none. -/
theorem agree_project {t u : Document.Tree} (h : Shuffled t u) :
    Agree Alike (project t) (project u) := by
  have hagree := OrderFree.agree (r := descriptor) .direct t u h
  exact hagree.map fun _ _ => Descriptor.alike_project

end Decode
end Stackwright
