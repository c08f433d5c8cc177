import HollowNode.Failure
import HollowNode.Proofs.Flag.Pairs
import HollowNode.Proofs.Flag.Taints
import HollowNode.Workload

namespace HollowNode.Workload

open Api HollowNode.Flag

variable {α : Type} {flag : String} {m : Dict String} {machine : KubemarkMachine}
  {args : List String}

/-- The settings that flags can carry. -/
def PlainSpec (spec : KubemarkMachineSpec) : Prop :=
  PlainDict spec.extendedResources ∧ PlainDict spec.nodeLabels ∧
    ∀ t ∈ spec.registerWithTaints, PlainTaint t

/-- A setting takes no argument if it is empty. Otherwise it takes one, which starts with the flag
and is read back as the setting. -/
inductive Given (flag : String) (read : String → Except Fault α) (empty : α) :
    α → List String → Prop
  | absent : Given flag read empty empty []
  | present {value : α} {body : String} (any : value ≠ empty)
      (back : read (flag ++ "=" ++ body) = .ok value) :
      Given flag read empty value [flag ++ "=" ++ body]

/-- Arguments that tell a node what its machine says. -/
def Tells (machine : KubemarkMachine) (args : List String) : Prop :=
  ∃ taints resources labels,
    Given registerWithTaints decodeTaints [] machine.spec.registerWithTaints taints ∧
    Given extendedResources (decode extendedResources) {} machine.spec.extendedResources resources ∧
    Given nodeLabels (decode nodeLabels) {} machine.spec.nodeLabels labels ∧
    args = ["--v=3", "--morph=kubelet", "--log-file=/var/log/kubelet.log",
      "--logtostderr=false"] ++ taints ++ ["--name=" ++ machine.metadata.nameAny] ++
      resources ++ labels

theorem checkPairs_eq_ok_iff : checkPairs flag (encodePairs flag m) m = .ok () ↔ PlainDict m := by
  rw [checkPairs, bind_eq_ok_iff]
  constructor
  · rintro ⟨m', decoded, h⟩
    split at h
    next heq => exact plainDict_of_decode (heq ▸ decoded)
    next => cases h
  · intro plain
    exact ⟨m, decode_encodePairs plain, if_pos rfl⟩

theorem given_flagsOf {read : String → Except Fault α} {empty value : α} {segs : List (List Char)}
    (back : read (render flag segs) = .ok value) (hempty : value = empty ↔ segs = []) :
    Given flag read empty value (flagsOf (render flag segs)) := by
  cases segs with
  | nil =>
      obtain rfl : value = empty := hempty.2 rfl
      exact .absent
  | cons seg segs =>
      have hrender : render flag (seg :: segs) = flag ++ "=" ++
          String.ofList (Text.joined ',' (seg :: segs)) := by
        simp [← String.toList_inj, render]
      have any : (render flag (seg :: segs)).isEmpty = false := by simp [hrender]
      rw [flagsOf, any, hrender]
      exact .present (by simp [hempty]) (hrender ▸ back)

theorem arguments_eq_ok_iff :
    arguments machine = .ok args ↔
      PlainSpec machine.spec ∧
      args = ["--v=3", "--morph=kubelet", "--log-file=/var/log/kubelet.log",
        "--logtostderr=false"] ++ flagsOf (encodeTaints machine.spec.registerWithTaints) ++
        ["--name=" ++ machine.metadata.nameAny] ++
        flagsOf (encodeResources machine.spec.extendedResources) ++
        flagsOf (encodeLabels machine.spec.nodeLabels) := by
  simp only [arguments, bind_eq_ok_iff]
  constructor
  · rintro ⟨⟨⟩, resources, ⟨⟩, labels, ts, taints, h⟩
    split at h
    next => cases h
    next heq =>
      obtain rfl : ts = machine.spec.registerWithTaints := Decidable.not_not.1 heq
      cases h
      have plainTaints := (decodeTaints_eq_ok_iff.1 taints).1
      exact ⟨⟨checkPairs_eq_ok_iff.1 resources, checkPairs_eq_ok_iff.1 labels, plainTaints⟩, rfl⟩
  · rintro ⟨⟨resources, labels, taints⟩, rfl⟩
    exact ⟨(), checkPairs_eq_ok_iff.2 resources, (), checkPairs_eq_ok_iff.2 labels, _,
      decodeTaints_eq_ok_iff.2 ⟨taints, rfl⟩, if_neg (not_not_intro rfl)⟩

theorem tells_of_arguments (h : arguments machine = .ok args) : Tells machine args := by
  obtain ⟨⟨resources, labels, taints⟩, rfl⟩ := arguments_eq_ok_iff.1 h
  exact ⟨_, _, _, given_flagsOf (decodeTaints_eq_ok_iff.2 ⟨taints, rfl⟩) List.map_eq_nil_iff.symm,
    given_flagsOf (decode_encodePairs resources) (Dict.eq_empty_iff.trans List.map_eq_nil_iff.symm),
    given_flagsOf (decode_encodePairs labels) (Dict.eq_empty_iff.trans List.map_eq_nil_iff.symm),
      rfl⟩

/-- A machine gets arguments exactly if flags can carry all of its settings, and the arguments tell
them. -/
theorem arguments_lossless (machine : KubemarkMachine) :
    ((∃ args, arguments machine = .ok args) ↔ PlainSpec machine.spec) ∧
    (¬ PlainSpec machine.spec →
      ∃ fault, arguments machine = .error fault ∧ (Failure.flag fault).kind = "malformed_flag") ∧
    ∀ args, arguments machine = .ok args → Tells machine args := by
  refine ⟨?_, fun hplain => ?_, fun args => tells_of_arguments⟩
  · exact ⟨fun ⟨_, h⟩ => (arguments_eq_ok_iff.1 h).1,
      fun plain => ⟨_, arguments_eq_ok_iff.2 ⟨plain, rfl⟩⟩⟩
  · cases h : arguments machine with
    | error fault => exact ⟨fault, rfl, rfl⟩
    | ok args => exact absurd (arguments_eq_ok_iff.1 h).1 hplain

def machineWith (labels : List (String × String)) (taints : List Taint) : KubemarkMachine where
  metadata := { name := some "km-1" }
  spec := { nodeLabels := Dict.ofList labels, registerWithTaints := taints }
  status := none

theorem separator_refused :
    Tells (machineWith [("b", "2"), ("a", "")] [⟨"a:b", some "", .noSchedule⟩])
      ["--v=3", "--morph=kubelet", "--log-file=/var/log/kubelet.log", "--logtostderr=false",
        "--register-with-taints=a:b=:NoSchedule", "--name=km-1", "--node-labels=a=,b=2"] ∧
    ∃ fault, arguments (machineWith [("a", "1,b=2")] []) = .error fault ∧
      (Failure.flag fault).kind = "malformed_flag" := by
  have told : arguments (machineWith [("b", "2"), ("a", "")] [⟨"a:b", some "", .noSchedule⟩]) =
      .ok ["--v=3", "--morph=kubelet", "--log-file=/var/log/kubelet.log", "--logtostderr=false",
        "--register-with-taints=a:b=:NoSchedule", "--name=km-1", "--node-labels=a=,b=2"] := by rfl
  have refused : ¬ PlainSpec (machineWith [("a", "1,b=2")] []).spec :=
    fun h => absurd h.2.1 (by decide)
  exact ⟨(arguments_lossless _).2.2 _ told, (arguments_lossless _).2.1 refused⟩

end HollowNode.Workload
