import Stackwright.Generate
import Stackwright.Proofs.Arrangement

/-!
# Programs do not depend on how dictionaries are walked

Everything that is built from a dictionary is built from its entries in ascending order of
the keys, so a program says nothing about the order in which a dictionary happens to be
walked.  Each group of settings is the same for an arranged value as for the value itself,
and so is the program of an arranged project.

Main results:

- Theorem `Service.code_arranged`: the code of a service does not depend on how its
  dictionaries are walked.
- Theorem `Project.generate_arranged`: the program of a project does not depend on how its
  dictionaries are walked.
- Theorem `Alike.generate_eq`: alike projects have the same program.
-/

namespace Stackwright

open Program

/-! ## Settings with keys -/

namespace Program
namespace Calls

variable (package : Package) (name : String)

/-- One call for each entry: the entries are called for in ascending order of their keys. -/
@[simp]
theorem pairs_arranged (values : Dict String) :
    pairs package name (arranged values) = pairs package name values := by
  simp [pairs]

/-- So are entries whose values may be missing. -/
@[simp]
theorem optionalPairs_arranged (values : Dict (Option String)) :
    optionalPairs package name (arranged values) = optionalPairs package name values := by
  simp [optionalPairs]

/-- One call with all entries: they stand in it in ascending order of their keys. -/
@[simp]
theorem textMap_arranged (values : Dict String) :
    textMap package name (arranged values) = textMap package name values := by
  simp [textMap]

@[simp]
theorem ulimits_arranged (limits : Dict Ulimit) :
    ulimits package name (arranged limits) = ulimits package name limits := by
  simp [ulimits]

end Calls
end Program

/-! ## Services -/

/-- The settings of an image build do not depend on how its dictionaries are walked. -/
theorem Build.calls_arranged (b : Build) : (arranged b).calls = b.calls := by
  delta Build.arrange
  simp [calls, fields]

/-- The settings of a deployment do not depend on how its labels are walked. -/
theorem Deploy.calls_arranged (d : Deploy) : (arranged d).calls = d.calls := by
  delta Deploy.arrange
  simp [calls, fields]

/-- A deployment has the delays of the arranged one. -/
theorem Deploy.overflows_arranged (d : Deploy) : (arranged d).overflows = d.overflows :=
  rfl

/-- The call for logging does not depend on how its options are walked. -/
theorem Logging.call?_arranged (l : Logging) : (arranged l).call? = l.call? := by
  delta Logging.arrange
  simp [call?]

/-- The settings of an endpoint do not depend on how its options are walked. -/
theorem Endpoint.calls_arranged (e : Endpoint) : (arranged e).calls = e.calls := by
  delta Endpoint.arrange
  simp [calls, addressCalls]

/-- A network is attached in the same way as with an arranged endpoint. -/
theorem attachment_arranged (macAddress : Option String) (network : String)
    (endpoint : Option Endpoint) :
    attachment macAddress network (arranged endpoint) = attachment macAddress network endpoint := by
  cases endpoint with
  | none => rfl
  | some e =>
      change attachment macAddress network (some (arranged e)) = _
      rw [attachment, attachment, e.calls_arranged]

namespace Service

/-- A container has the same settings however its variables and labels are walked. -/
theorem containerCalls_arranged (s : Service) : (arranged s).containerCalls = s.containerCalls := by
  delta Service.arrange
  simp [containerCalls, containerFields]

/-- A host has the same settings however its dictionaries are walked. -/
theorem hostCalls_arranged (s : Service) : (arranged s).hostCalls = s.hostCalls := by
  have hlogging := bind_arranged Logging.call?_arranged s.logging
  delta Service.arrange
  simp [hostCalls, hostFields, hostEntries, hlogging]

/-- Networks are attached in ascending order of their names, and so the hardware address of a
service goes to the same one. -/
theorem endpointCalls_arranged (s : Service) : (arranged s).endpointCalls = s.endpointCalls := by
  have hsorted := s.networks.sorted_arranged
  delta Service.arrange
  simp only [endpointCalls, hsorted]
  cases s.networks.sorted with
  | nil => rfl
  | cons first rest => simp [attachment_arranged]

/-- The orchestration settings are the same however the dictionaries of a service, its build and its
deployment are walked. -/
theorem orchestrationCalls_arranged (s : Service) :
    (arranged s).orchestrationCalls = s.orchestrationCalls := by
  have hbuild := map_arranged (f := fun b : Build => Expr.packageCall .service "Build" b.calls)
    (fun b => by rw [b.calls_arranged]) s.build
  have hdeploy := map_arranged (f := fun d : Deploy => Expr.packageCall .service "Deploy" d.calls)
    (fun d => by rw [d.calls_arranged]) s.deploy
  delta Service.arrange
  simp [orchestrationCalls, orchestrationFields, hbuild, hdeploy]

/-- The code of a service does not depend on how its dictionaries are walked. -/
theorem code_arranged (s : Service) : (arranged s).code = s.code := by
  have hgroups : (arranged s).groups = s.groups := by
    rw [groups, groups, s.containerCalls_arranged, s.hostCalls_arranged, s.endpointCalls_arranged]
    rfl
  have hcontainer : (arranged s).containerExpr = s.containerExpr := by
    rw [containerExpr, containerExpr, hgroups]
  have horchestration : (arranged s).orchestrationExpr = s.orchestrationExpr := by
    rw [orchestrationExpr, orchestrationExpr, s.orchestrationCalls_arranged]
  rw [code, code, hcontainer, horchestration]
  rfl

theorem overflows_arranged (s : Service) : (arranged s).overflows = s.overflows := by
  change (arranged s.deploy).any Deploy.overflows = s.deploy.any Deploy.overflows
  cases s.deploy <;> rfl

end Service

/-! ## Networks and volumes -/

/-- The settings of a pool do not depend on how its addresses are walked. -/
theorem IpamPool.calls_arranged (p : IpamPool) : (arranged p).calls = p.calls := by
  delta IpamPool.arrange
  simp [calls]

/-- The settings of an address management are those of its pools, which are arranged one by one. -/
theorem Ipam.fields_arranged (i : Ipam) : (arranged i).fields = i.fields := by
  have hpools : (arranged i).config = i.config.map arranged := rfl
  have hdriver : (arranged i).driver = i.driver := rfl
  rw [fields, fields, hpools, hdriver, List.map_map]
  simp [Function.comp_def, IpamPool.calls_arranged]

theorem Ipam.isEmpty_arranged (i : Ipam) : (arranged i).isEmpty = i.isEmpty := by
  have hpools : (arranged i).config = i.config.map arranged := rfl
  rw [isEmpty, isEmpty, hpools, List.isEmpty_map]
  rfl

/-- The call that creates a network does not depend on how its dictionaries are walked. -/
theorem Network.creation_arranged (n : Network) (key : String) :
    (arranged n).creation key = n.creation key := by
  have hfields := map_arranged Ipam.fields_arranged n.ipam
  have hempty : (arranged n.ipam).all Ipam.isEmpty = n.ipam.all Ipam.isEmpty := by
    cases n.ipam with
    | none => rfl
    | some i => exact i.isEmpty_arranged
  delta Network.arrange
  simp [creation, nameFor, isTrivial, calls, fields, hfields, hempty]

/-- The call that creates a volume does not depend on how its dictionaries are walked. -/
theorem Volume.creation_arranged (v : Volume) (key : String) :
    (arranged v).creation key = v.creation key := by
  delta Volume.arrange
  simp [creation, nameFor, isTrivial, calls, fields]

/-! ## Projects -/

namespace Project

variable {p q : Project}

/-- The services of an arranged project, in ascending order of their names. -/
theorem sortedServices_arranged (hnames : p.NamesServices) :
    (arranged p).sortedServices = p.sortedServices.map arranged := by
  have hservices : (arranged p).services = arranged p.services := rfl
  rw [sortedServices_eq hnames, sortedServices_eq (namesServices_arranged.2 hnames), hservices,
    Dict.sorted_arranged, List.map_map, List.map_map]
  rfl

/-- The code of the services is the same, in the same order. -/
theorem serviceCodes_arranged (hnames : p.NamesServices) :
    (arranged p).serviceCodes = p.serviceCodes := by
  rw [serviceCodes, serviceCodes, sortedServices_arranged hnames, List.map_map]
  exact List.map_congr_left fun s _ => s.code_arranged

/-- Networks are created in the same way and in the same order. -/
theorem networkCreations_arranged (p : Project) :
    (arranged p).networkCreations = p.networkCreations := by
  have hnetworks : (arranged p).networks = arranged p.networks := rfl
  rw [networkCreations, networkCreations, hnetworks, Dict.sorted_arranged, List.filter_map,
    List.map_map]
  exact List.map_congr_left fun entry _ => entry.2.creation_arranged entry.1

/-- Volumes are created in the same way and in the same order. -/
theorem volumeCreations_arranged (p : Project) :
    (arranged p).volumeCreations = p.volumeCreations := by
  have hvolumes : (arranged p).volumes = arranged p.volumes := rfl
  rw [volumeCreations, volumeCreations, hvolumes, Dict.sorted_arranged, List.filter_map,
    List.map_map]
  exact List.map_congr_left fun entry _ => entry.2.creation_arranged entry.1

/-- The program of a project is assembled in the same way however its dictionaries are walked. -/
theorem assemble_arranged (hnames : p.NamesServices) (options : GenerateOptions) :
    (arranged p).assemble options = p.assemble options := by
  have hname : (arranged p).programName options = p.programName options := rfl
  simp only [assemble, constructorFunc, constructorBody, serviceCodes_arranged hnames,
    networkCreations_arranged, volumeCreations_arranged, hname]

/-- The program of a project does not depend on how its dictionaries are walked. -/
theorem generate_arranged (hnames : p.NamesServices) (options : GenerateOptions) :
    (arranged p).generate options = p.generate options := by
  rw [generate, generate, source, source, assemble_arranged hnames]

/-- An overflow does not depend on how dictionaries are walked either. -/
theorem overflows_arranged (hnames : p.NamesServices) : (arranged p).overflows = p.overflows := by
  have hservices : Service.overflows ∘ arranged = Service.overflows :=
    funext Service.overflows_arranged
  rw [overflows, overflows, sortedServices_arranged hnames, List.any_map, hservices]

end Project

namespace Alike

variable {p q : Project}

/-- Alike projects have the same program, or fail in the same way. -/
theorem generate_eq (h : Alike p q) (hnames : p.NamesServices) (options : GenerateOptions) :
    p.generate options = q.generate options := by
  rw [← Project.generate_arranged hnames, h, Project.generate_arranged (hnames.of_alike h)]

/-- Generating a program ends in the same way for alike projects, however the generator is built. -/
theorem generateIn_eq (h : Alike p q) (hnames : p.NamesServices) (mode : Project.BuildMode)
    (options : GenerateOptions) : p.generateIn mode options = q.generateIn mode options := by
  have hoverflows : p.overflows = q.overflows := by
    rw [← Project.overflows_arranged hnames, h, Project.overflows_arranged (hnames.of_alike h)]
  unfold Project.generateIn
  rw [hoverflows, h.generate_eq hnames]

end Alike
end Stackwright
