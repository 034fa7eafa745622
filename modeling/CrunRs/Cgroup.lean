import CrunRs.Lib.Text
import CrunRs.Policy

/-!
# The limits of a cgroup

`CgroupConfig::validate` and `Cgroup::new_at` of `cgroup/mod.rs`.  The configuration is what the
policy of a bundle makes of its resources (`apply_cgroup`).

Zero and negative limits are refused (`CgroupConfig.validate_eq_ok_iff`).  The defaults of a profile
pass, and an explicit limit is never replaced by one of them, so the configuration passes exactly if
the explicit one does (`applyCgroup_validate_iff`).

`new_at` enables the controllers it needs, makes the directory and writes the limits; if it fails on
the way it takes back what it did.  It writes the controllers that were enabled before to
`cgroup.subtree_control`, but the file takes changes, and the names without a sign are refused.  And
it removes the directory, also if it was there before.  So a setup that fails leaves no trace exactly
if there was nothing to take back (`newAt_atomic_iff`).
-/

set_option autoImplicit false

namespace CrunRs

open Fallible

/-! ## Limits -/

/-- `CgroupConfig::validate`. -/
def CgroupConfig.validate (config : CgroupConfig) : Except CgroupError Unit := do
  config.memoryLimit.toList.forM fun value ↦ ensure (¬ value ≤ 0) (.invalidMemoryLimit value)
  config.cpuQuota.toList.forM fun value ↦ ensure (¬ value ≤ 0) (.invalidCpuQuota value)
  config.cpuPeriod.toList.forM fun value ↦ ensure (value ≠ 0) (.invalidCpuPeriod value)
  config.pidsLimit.toList.forM fun value ↦ ensure (¬ value ≤ 0) (.invalidPidsLimit value)

/-- Every limit that is given is positive. -/
structure CgroupConfig.Positive (config : CgroupConfig) : Prop where
  memoryLimit : ∀ value ∈ config.memoryLimit, 0 < value
  cpuQuota : ∀ value ∈ config.cpuQuota, 0 < value
  cpuPeriod : ∀ value ∈ config.cpuPeriod, value ≠ 0
  pidsLimit : ∀ value ∈ config.pidsLimit, 0 < value

theorem CgroupConfig.validate_eq_ok_iff {config : CgroupConfig} :
    config.validate = .ok () ↔ config.Positive := by
  simp only [CgroupConfig.validate, seq_eq_ok_iff, forM_eq_ok_iff, ensure_eq_ok_iff,
    Option.mem_toList, Int.not_le]
  exact ⟨fun ⟨h₁, h₂, h₃, h₄⟩ ↦ ⟨h₁, h₂, h₃, h₄⟩,
    fun h ↦ ⟨h.memoryLimit, h.cpuQuota, h.cpuPeriod, h.pidsLimit⟩⟩

/-- A default that is fine changes nothing about an explicit value. -/
theorem forall_mem_or_iff {α : Type} {p : α → Prop} {explicit default : Option α}
    (hdefault : ∀ value ∈ default, p value) :
    (∀ value ∈ explicit.or default, p value) ↔ ∀ value ∈ explicit, p value := by
  cases explicit with
  | none => simpa using hdefault
  | some value => simp

/-- The empty configuration stands for none. -/
theorem forall_mem_ite_empty_iff {p : CgroupConfig → Prop} (hempty : p {}) {merged : CgroupConfig} :
    (∀ cgroup ∈ (if merged = {} then none else some merged), p cgroup) ↔ p merged := by
  split
  · rename_i h
    rw [h]
    simpa using hempty
  · simp

theorem CgroupConfig.positive_empty : ({} : CgroupConfig).Positive :=
  ⟨by simp, by simp, by simp, by simp⟩

theorem CgroupConfig.positive_restricted :
    ({ memoryLimit := some 268435456, pidsLimit := some 64 } : CgroupConfig).Positive :=
  ⟨by simp, by simp, by simp, by simp⟩

/-- Positive defaults change nothing about an explicit configuration. -/
theorem CgroupConfig.positive_or_iff {defaults config : CgroupConfig} (h : defaults.Positive) :
    CgroupConfig.Positive
      { memoryLimit := config.memoryLimit.or defaults.memoryLimit
        cpuQuota := config.cpuQuota.or defaults.cpuQuota
        cpuPeriod := config.cpuPeriod.or defaults.cpuPeriod
        pidsLimit := config.pidsLimit.or defaults.pidsLimit } ↔ config.Positive := by
  constructor
  · rintro ⟨h₁, h₂, h₃, h₄⟩
    exact ⟨(forall_mem_or_iff h.memoryLimit).mp h₁, (forall_mem_or_iff h.cpuQuota).mp h₂,
      (forall_mem_or_iff h.cpuPeriod).mp h₃, (forall_mem_or_iff h.pidsLimit).mp h₄⟩
  · rintro ⟨h₁, h₂, h₃, h₄⟩
    exact ⟨(forall_mem_or_iff h.memoryLimit).mpr h₁, (forall_mem_or_iff h.cpuQuota).mpr h₂,
      (forall_mem_or_iff h.cpuPeriod).mpr h₃, (forall_mem_or_iff h.pidsLimit).mpr h₄⟩

/-- **Only an explicit limit can be refused.** -/
theorem applyCgroup_validate_iff {explicit : Option CgroupConfig} {profile : PolicyProfile} :
    (∀ cgroup ∈ applyCgroup explicit profile, cgroup.validate = .ok ()) ↔
      ∀ config ∈ explicit, config.Positive := by
  simp only [CgroupConfig.validate_eq_ok_iff, applyCgroup,
    forall_mem_ite_empty_iff CgroupConfig.positive_empty]
  cases explicit with
  | none =>
    cases profile <;>
      simp [CgroupConfig.positive_empty, CgroupConfig.positive_restricted]
  | some config =>
    rw [CgroupConfig.positive_or_iff]
    · simp
    · cases profile with
      | restricted => exact CgroupConfig.positive_restricted
      | none | debug => exact CgroupConfig.positive_empty

/-! ## The files of a cgroup -/

namespace Cgroup

/-- The name of a controller: a word, and not one that looks like a change. -/
structure IsController (name : String) : Prop where
  nonempty : name.toList ≠ []
  noWhitespace : ∀ c ∈ name.toList, Text.isWhitespace c = false
  noSign : name.toList.head? ≠ some '+' ∧ name.toList.head? ≠ some '-'

/-- The root of the runtime's cgroups: the controllers it has, which of them are enabled for what is
below it, and the directory of one container with the files that were written there. -/
structure CgroupRoot where
  controllers : List String
  isController : ∀ name ∈ controllers, IsController name
  enabled : String → Bool
  cgroup : Option (List (String × String))

namespace CgroupRoot

/-- The content of `cgroup.controllers`. -/
def controllersFile (root : CgroupRoot) : List Char :=
  Text.joinWords ['\n'] (root.controllers.map String.toList)

/-- The content of `cgroup.subtree_control`. -/
def subtreeControl (root : CgroupRoot) : List Char :=
  Text.joinWords ['\n'] ((root.controllers.filter root.enabled).map String.toList)

/-- A word of a write to `cgroup.subtree_control`: a sign, and the name of a controller. -/
def parseChange (root : CgroupRoot) : List Char → Option (String × Bool)
  | '+' :: name =>
    if String.ofList name ∈ root.controllers then some (String.ofList name, true) else none
  | '-' :: name =>
    if String.ofList name ∈ root.controllers then some (String.ofList name, false) else none
  | _ => none

/-- A write to `cgroup.subtree_control`.  It is refused unless every word of it is a change. -/
def writeSubtreeControl (root : CgroupRoot) (content : List Char) : Option CgroupRoot :=
  ((Text.splitWhitespace content).mapM root.parseChange).map fun changes ↦
    { root with
      enabled := changes.foldl (fun enabled change ↦ Function.update enabled change.1 change.2)
        root.enabled }

end CgroupRoot

/-! ## `Cgroup::new_at` -/

/-- Which of the calls of `new_at` fail. -/
structure CgroupFaults where
  createRoot : Bool := false
  readControllers : Bool := false
  readSubtreeControl : Bool := false
  enable : Bool := false
  createDir : Bool := false
  memoryMax : Bool := false
  cpuMax : Bool := false
  pidsMax : Bool := false

/-- `required_controllers`, in the order of the set. -/
def requiredControllers (config : CgroupConfig) : List String :=
  (if config.cpuQuota.isSome then ["cpu"] else []) ++
    (if config.memoryLimit.isSome then ["memory"] else []) ++
    if config.pidsLimit.isSome then ["pids"] else []

/-- `ControllerActivation`. -/
structure ControllerActivation where
  previous : List Char := []
  added : List String := []

/-- `enable_required_controllers`. -/
def enableRequiredControllers (faults : CgroupFaults) (rootPath : String) (config : CgroupConfig)
    (root : CgroupRoot) : CgroupRoot × Except CgroupError ControllerActivation :=
  let required := requiredControllers config
  if required = [] then (root, .ok {})
  else if faults.readControllers then
    (root, .error (.context ("failed to read cgroup controllers: " ++ rootPath)))
  else
    let available := Text.splitWhitespace root.controllersFile
    match required.find? fun controller ↦ controller.toList ∉ available with
    | some controller => (root, .error (.controllerUnavailable controller))
    | none =>
      if faults.readSubtreeControl then
        (root, .error (.context ("failed to read cgroup subtree control: " ++ rootPath)))
      else
        let previous := root.subtreeControl
        let current := Text.splitWhitespace previous
        let newlyEnabled := required.filter fun controller ↦ controller.toList ∉ current
        if newlyEnabled = [] then (root, .ok { previous, added := newlyEnabled })
        else
          let value := Text.joinWords [] (newlyEnabled.map fun controller ↦ '+' :: controller.toList)
          match if faults.enable then none else root.writeSubtreeControl value with
          | none => (root, .error (.context ("failed to enable cgroup controllers: " ++ rootPath)))
          | some root => (root, .ok { previous, added := newlyEnabled })

/-- `rollback_enabled_controllers`; a write that fails is only logged. -/
def rollbackEnabledControllers (activation : ControllerActivation) (root : CgroupRoot) : CgroupRoot :=
  if activation.added = [] then root
  else (root.writeSubtreeControl activation.previous).getD root

/-- A write to a file of the container's cgroup. -/
def writeFile (fails : Bool) (name content : String) (root : CgroupRoot) :
    CgroupRoot × Except CgroupError Unit :=
  if fails then (root, .error (.context ("failed to write " ++ name)))
  else ({ root with cgroup := root.cgroup.map (· ++ [(name, content)]) }, .ok ())

/-- One step, and another one if it succeeds. -/
def andThen (result : CgroupRoot × Except CgroupError Unit)
    (next : CgroupRoot → CgroupRoot × Except CgroupError Unit) :
    CgroupRoot × Except CgroupError Unit :=
  match result with
  | (root, .ok ()) => next root
  | (root, .error e) => (root, .error e)

/-- `create_dir_all`, which is content with a directory that is there. -/
def createDir (faults : CgroupFaults) (path : String) (root : CgroupRoot) :
    CgroupRoot × Except CgroupError Unit :=
  if root.cgroup.isSome then (root, .ok ())
  else if faults.createDir then
    (root, .error (.context ("failed to create container cgroup: " ++ path)))
  else ({ root with cgroup := some [] }, .ok ())

/-- A limit is written if it is given. -/
def writeLimit {α : Type} (limit : Option α) (fails : Bool) (name : String) (content : α → String)
    (root : CgroupRoot) : CgroupRoot × Except CgroupError Unit :=
  match limit with
  | some limit => writeFile fails name (content limit) root
  | none => (root, .ok ())

/-- The closure of `new_at` that makes the directory and writes the limits. -/
def setUp (faults : CgroupFaults) (path : String) (config : CgroupConfig) (root : CgroupRoot) :
    CgroupRoot × Except CgroupError Unit :=
  andThen (createDir faults path root) fun root ↦
  andThen (writeLimit config.memoryLimit faults.memoryMax "memory.max" toString root) fun root ↦
  andThen (writeLimit config.cpuQuota faults.cpuMax "cpu.max"
    (fun quota ↦ toString quota ++ " " ++ toString (config.cpuPeriod.getD 100000)) root) fun root ↦
  writeLimit config.pidsLimit faults.pidsMax "pids.max" toString root

/-- `Cgroup::new_at`: the path of the cgroup. -/
def newAt (faults : CgroupFaults) (rootPath id : String) (config : CgroupConfig) (root : CgroupRoot) :
    CgroupRoot × Except CgroupError String :=
  match State.validateId id with
  | .error e => (root, .error (.state e))
  | .ok () => match config.validate with
    | .error e => (root, .error e)
    | .ok () =>
      if faults.createRoot then (root, .error (.context "failed to create cgroup root"))
      else match enableRequiredControllers faults rootPath config root with
        | (root, .error e) => (root, .error e)
        | (root, .ok activation) =>
          let path := rootPath ++ "/" ++ id
          match setUp faults path config root with
          | (root, .ok ()) => (root, .ok path)
          | (root, .error e) =>
            -- the cgroup holds no process, so that it can be removed if it is there
            (rollbackEnabledControllers activation { root with cgroup := none }, .error e)

/-! ## What a failed setup leaves behind -/

namespace CgroupRoot

/-- The controllers that are enabled. -/
def enabledControllers (root : CgroupRoot) : List String := root.controllers.filter root.enabled

/-- With more controllers enabled. -/
def enabling (names : List String) (root : CgroupRoot) : CgroupRoot :=
  { root with enabled := fun name ↦ decide (name ∈ names) || root.enabled name }

theorem splitWhitespace_names {names : List String} (h : ∀ name ∈ names, IsController name) :
    Text.splitWhitespace (Text.joinWords ['\n'] (names.map String.toList)) =
      names.map String.toList := by
  refine Text.splitWhitespace_joinWords (.inr rfl) fun word hword ↦ ?_
  obtain ⟨name, hname, rfl⟩ := List.mem_map.mp hword
  exact ⟨(h name hname).nonempty, (h name hname).noWhitespace⟩

theorem mem_splitWhitespace_controllersFile {root : CgroupRoot} {name : String} :
    name.toList ∈ Text.splitWhitespace root.controllersFile ↔ name ∈ root.controllers := by
  rw [controllersFile, splitWhitespace_names root.isController,
    List.mem_map_of_injective fun _ _ ↦ String.toList_injective]

theorem isController_of_mem_enabledControllers {root : CgroupRoot} {name : String}
    (h : name ∈ root.enabledControllers) : IsController name :=
  root.isController name (List.mem_filter.mp h).1

theorem mem_splitWhitespace_subtreeControl {root : CgroupRoot} {name : String} :
    name.toList ∈ Text.splitWhitespace root.subtreeControl ↔ name ∈ root.enabledControllers := by
  rw [subtreeControl, ← enabledControllers,
    splitWhitespace_names fun _ ↦ isController_of_mem_enabledControllers,
    List.mem_map_of_injective fun _ _ ↦ String.toList_injective]

theorem parseChange_plus {root : CgroupRoot} {name : String} (h : name ∈ root.controllers) :
    root.parseChange ('+' :: name.toList) = some (name, true) := by
  simp [parseChange, h]

/-- The name of a controller alone is no change. -/
theorem parseChange_name (root : CgroupRoot) {name : String} (h : IsController name) :
    root.parseChange name.toList = none := by
  have hsign := h.noSign
  rw [parseChange.eq_def]
  split
  · rename_i rest heq
    rw [heq] at hsign
    exact absurd rfl hsign.1
  · rename_i rest heq
    rw [heq] at hsign
    exact absurd rfl hsign.2
  · rfl

/-- What was read from `cgroup.subtree_control` is refused there, or says nothing. -/
theorem writeSubtreeControl_subtreeControl (root previous : CgroupRoot) :
    (root.writeSubtreeControl previous.subtreeControl).getD root = root := by
  rw [writeSubtreeControl, subtreeControl, ← enabledControllers,
    splitWhitespace_names fun _ ↦ isController_of_mem_enabledControllers]
  have h := @isController_of_mem_enabledControllers previous
  cases henabled : previous.enabledControllers with
  | nil => rfl
  | cons name names =>
    rw [henabled] at h
    rw [List.map_cons, List.mapM_cons, parseChange_name root (h List.mem_cons_self)]
    rfl

theorem foldl_update_true (names : List String) (enabled : String → Bool) :
    (names.map fun name ↦ (name, true)).foldl
        (fun enabled change ↦ Function.update enabled change.1 change.2) enabled =
      fun name ↦ decide (name ∈ names) || enabled name := by
  induction names generalizing enabled with
  | nil => simp
  | cons first names ih =>
    rw [List.map_cons, List.foldl_cons, ih]
    funext name
    by_cases hfirst : name = first
    · simp [hfirst]
    · simp [hfirst]

/-- A write of `+` and a name for each of some controllers enables them. -/
theorem writeSubtreeControl_plus {root : CgroupRoot} {names : List String}
    (h : ∀ name ∈ names, name ∈ root.controllers) :
    root.writeSubtreeControl (Text.joinWords [] (names.map fun name ↦ '+' :: name.toList)) =
      some (root.enabling names) := by
  have hwords : Text.splitWhitespace (Text.joinWords [] (names.map fun name ↦ '+' :: name.toList)) =
      names.map fun name ↦ '+' :: name.toList := by
    refine Text.splitWhitespace_joinWords (.inl rfl) fun word hword ↦ ?_
    obtain ⟨name, hname, rfl⟩ := List.mem_map.mp hword
    refine ⟨List.cons_ne_nil _ _, ?_⟩
    rw [List.forall_mem_cons]
    exact ⟨by decide, (root.isController name (h name hname)).noWhitespace⟩
  have hchanges : (names.map fun name ↦ '+' :: name.toList).mapM root.parseChange =
      some (names.map fun name ↦ (name, true)) := by
    clear hwords
    induction names with
    | nil => rfl
    | cons name names ih =>
      rw [List.forall_mem_cons] at h
      rw [List.map_cons, List.mapM_cons, parseChange_plus h.1, ih h.2]
      rfl
  rw [writeSubtreeControl, hwords, hchanges, Option.map_some, foldl_update_true]
  rfl

end CgroupRoot

open CgroupRoot

/-- The controllers that are needed are there, and can be enabled. -/
def CanEnable (faults : CgroupFaults) (config : CgroupConfig) (root : CgroupRoot) : Prop :=
  requiredControllers config = [] ∨
    (¬ faults.readControllers ∧ (∀ name ∈ requiredControllers config, name ∈ root.controllers) ∧
      ¬ faults.readSubtreeControl ∧
      (faults.enable → ∀ name ∈ requiredControllers config, root.enabled name))

/-- The controllers of a list that are not in `cgroup.subtree_control`. -/
theorem mem_newlyEnabled_iff {root : CgroupRoot} {required : List String}
    (h : ∀ name ∈ required, name ∈ root.controllers) {name : String} :
    name ∈ required.filter
        (fun controller ↦ controller.toList ∉ Text.splitWhitespace root.subtreeControl) ↔
      name ∈ required ∧ root.enabled name = false := by
  simp only [List.mem_filter, decide_eq_true_eq, mem_splitWhitespace_subtreeControl,
    enabledControllers, not_and, Bool.not_eq_true]
  exact and_congr_right fun hname ↦ ⟨fun henabled ↦ henabled (h name hname), fun henabled _ ↦ henabled⟩

/-- Those that are enabled already make no difference. -/
theorem enabling_newlyEnabled {root : CgroupRoot} {required : List String}
    (h : ∀ name ∈ required, name ∈ root.controllers) :
    root.enabling (required.filter
        fun controller ↦ controller.toList ∉ Text.splitWhitespace root.subtreeControl) =
      root.enabling required := by
  simp only [enabling, mem_newlyEnabled_iff h]
  congr
  funext name
  cases root.enabled name with
  | true => simp
  | false => simp

theorem enabling_of_enabled {root : CgroupRoot} {names : List String}
    (h : ∀ name ∈ names, root.enabled name = true) : root.enabling names = root := by
  have henabled : (fun name ↦ decide (name ∈ names) || root.enabled name) = root.enabled := by
    funext name
    by_cases hname : name ∈ names
    · simp [hname, h name hname]
    · simp [hname]
  rw [enabling, henabled]

theorem rollbackEnabledControllers_subtreeControl (previous root : CgroupRoot) (added : List String) :
    rollbackEnabledControllers ⟨previous.subtreeControl, added⟩ root = root := by
  rw [rollbackEnabledControllers]
  split
  · rfl
  · exact writeSubtreeControl_subtreeControl root previous

/-- What `enable_required_controllers` does: nothing, or the controllers that are needed are enabled,
and the activation it returns takes nothing back. -/
theorem enableRequiredControllers_cases (faults : CgroupFaults) (rootPath : String)
    (config : CgroupConfig) (root : CgroupRoot) :
    (¬ CanEnable faults config root ∧
      ∃ e, enableRequiredControllers faults rootPath config root = (root, .error e)) ∨
    (CanEnable faults config root ∧ (∀ name ∈ requiredControllers config, name ∈ root.controllers) ∧
      ∃ activation, enableRequiredControllers faults rootPath config root =
          (root.enabling (requiredControllers config), .ok activation) ∧
        ∀ root', rollbackEnabledControllers activation root' = root') := by
  by_cases hrequired : requiredControllers config = []
  · refine .inr ⟨.inl hrequired, by simp [hrequired], {}, ?_, fun _ ↦ rfl⟩
    simp [enableRequiredControllers, hrequired, enabling]
  rw [enableRequiredControllers, if_neg hrequired]
  by_cases hread : faults.readControllers = true
  · rw [if_pos hread]
    exact .inl ⟨by simp [CanEnable, hrequired, hread], _, rfl⟩
  rw [if_neg hread]
  simp only [mem_splitWhitespace_controllersFile]
  split
  · rename_i controller hfind
    have hmem := List.mem_of_find?_eq_some hfind
    have hmissing : controller ∉ root.controllers := by simpa using List.find?_some hfind
    exact .inl ⟨by
      rintro (hnil | ⟨-, hall, -⟩)
      · exact hrequired hnil
      · exact hmissing (hall controller hmem), _, rfl⟩
  rename_i hfind
  have hall : ∀ name ∈ requiredControllers config, name ∈ root.controllers := by
    simpa using List.find?_eq_none.mp hfind
  by_cases hsubtree : faults.readSubtreeControl = true
  · rw [if_pos hsubtree]
    exact .inl ⟨by simp [CanEnable, hrequired, hsubtree], _, rfl⟩
  rw [if_neg hsubtree]
  split
  · rename_i hnew
    have henabled : ∀ name ∈ requiredControllers config, root.enabled name = true := by
      intro name hname
      by_contra hdisabled
      have hmem := (mem_newlyEnabled_iff hall).mpr ⟨hname, by simpa using hdisabled⟩
      rw [hnew] at hmem
      exact absurd hmem List.not_mem_nil
    rw [enabling_of_enabled henabled]
    exact .inr ⟨.inr ⟨hread, hall, hsubtree, fun _ ↦ henabled⟩, hall, _, rfl,
      fun root' ↦ rollbackEnabledControllers_subtreeControl root root' _⟩
  · rename_i hnew
    have hplus := writeSubtreeControl_plus fun name hname ↦
      hall name ((mem_newlyEnabled_iff hall).mp hname).1
    rw [hplus, enabling_newlyEnabled hall]
    by_cases henable : faults.enable = true
    · rw [if_pos henable]
      refine .inl ⟨?_, _, rfl⟩
      rintro (hnil | ⟨-, -, -, henabled⟩)
      · exact hrequired hnil
      · refine hnew (List.eq_nil_iff_forall_not_mem.mpr fun name hname ↦ ?_)
        obtain ⟨hname, hdisabled⟩ := (mem_newlyEnabled_iff hall).mp hname
        rw [henabled henable name hname] at hdisabled
        simp at hdisabled
    · rw [if_neg henable]
      exact .inr ⟨.inr ⟨hread, hall, hsubtree, fun h ↦ absurd h henable⟩, hall, _, rfl,
        fun root' ↦ rollbackEnabledControllers_subtreeControl root root' _⟩

/-- The step that makes the directory fails, or one that writes a limit. -/
def SetUpFails (faults : CgroupFaults) (config : CgroupConfig) (root : CgroupRoot) : Prop :=
  (root.cgroup = none ∧ faults.createDir = true) ∨
    (config.memoryLimit.isSome ∧ faults.memoryMax) ∨ (config.cpuQuota.isSome ∧ faults.cpuMax) ∨
    (config.pidsLimit.isSome ∧ faults.pidsMax)

/-- A step of the setup: it fails or not, and changes nothing but the directory. -/
structure IsSetUpStep (step : CgroupRoot → CgroupRoot × Except CgroupError Unit)
    (fails : CgroupRoot → Prop) : Prop where
  controllers (root : CgroupRoot) : (step root).1.controllers = root.controllers
  enabled (root : CgroupRoot) : (step root).1.enabled = root.enabled
  result (root : CgroupRoot) : (∃ e, (step root).2 = .error e) ↔ fails root

theorem IsSetUpStep.andThen {step next : CgroupRoot → CgroupRoot × Except CgroupError Unit}
    {fails : CgroupRoot → Prop} {nextFails : Prop} (hstep : IsSetUpStep step fails)
    (hnext : IsSetUpStep next fun _ ↦ nextFails) :
    IsSetUpStep (fun root ↦ andThen (step root) next) fun root ↦ fails root ∨ nextFails := by
  have hcases (root : CgroupRoot) :
      (∃ root', step root = (root', .ok ())) ∨ ∃ root' e, step root = (root', .error e) := by
    rcases h : step root with ⟨root', _ | _⟩
    · exact .inr ⟨root', _, rfl⟩
    · exact .inl ⟨root', rfl⟩
  refine ⟨fun root ↦ ?_, fun root ↦ ?_, fun root ↦ ?_⟩
  · have h := hstep.controllers root
    rcases hcases root with ⟨root', hroot⟩ | ⟨root', e, hroot⟩
    · rw [hroot] at h
      rw [hroot, Cgroup.andThen, hnext.controllers, h]
    · rw [hroot] at h ⊢
      exact h
  · have h := hstep.enabled root
    rcases hcases root with ⟨root', hroot⟩ | ⟨root', e, hroot⟩
    · rw [hroot] at h
      rw [hroot, Cgroup.andThen, hnext.enabled, h]
    · rw [hroot] at h ⊢
      exact h
  · rw [← hstep.result root]
    rcases hcases root with ⟨root', hroot⟩ | ⟨root', e, hroot⟩
    · rw [hroot, Cgroup.andThen, hnext.result]
      simp
    · rw [hroot, Cgroup.andThen]
      simp

theorem isSetUpStep_createDir (faults : CgroupFaults) (path : String) :
    IsSetUpStep (createDir faults path) fun root ↦ root.cgroup = none ∧ faults.createDir = true := by
  refine ⟨fun root ↦ ?_, fun root ↦ ?_, fun root ↦ ?_⟩ <;> rw [createDir]
  · split_ifs <;> rfl
  · split_ifs <;> rfl
  · cases hcgroup : root.cgroup with
    | some files => simp
    | none => cases hfault : faults.createDir <;> simp

theorem isSetUpStep_writeLimit {α : Type} (limit : Option α) (fails : Bool) (name : String)
    (content : α → String) :
    IsSetUpStep (writeLimit limit fails name content) fun _ ↦ limit.isSome ∧ fails := by
  cases limit with
  | none => exact ⟨fun _ ↦ rfl, fun _ ↦ rfl, fun _ ↦ by simp [writeLimit]⟩
  | some limit => cases fails with
    | true => exact ⟨fun _ ↦ rfl, fun _ ↦ rfl, fun _ ↦ by simp [writeLimit, writeFile]⟩
    | false => exact ⟨fun _ ↦ rfl, fun _ ↦ rfl, fun _ ↦ by simp [writeLimit, writeFile]⟩

theorem isSetUpStep_setUp (faults : CgroupFaults) (path : String) (config : CgroupConfig) :
    IsSetUpStep (setUp faults path config) (SetUpFails faults config) :=
  (isSetUpStep_createDir faults path).andThen <|
    (isSetUpStep_writeLimit config.memoryLimit faults.memoryMax "memory.max" toString).andThen <|
    (isSetUpStep_writeLimit config.cpuQuota faults.cpuMax "cpu.max" fun quota ↦
      toString quota ++ " " ++ toString (config.cpuPeriod.getD 100000)).andThen <|
    isSetUpStep_writeLimit config.pidsLimit faults.pidsMax "pids.max" toString

/-- The setup is reached: the arguments are fine, and the controllers are enabled. -/
def ReachesSetUp (faults : CgroupFaults) (id : String) (config : CgroupConfig) (root : CgroupRoot) :
    Prop :=
  State.validateId id = .ok () ∧ config.Positive ∧ faults.createRoot = false ∧
    CanEnable faults config root

/-- What `new_at` does: it succeeds, or it fails before the setup and leaves everything as it was, or it
fails in the setup and leaves the controllers enabled and no directory. -/
theorem newAt_cases (faults : CgroupFaults) (rootPath id : String) (config : CgroupConfig)
    (root : CgroupRoot) :
    (¬ (ReachesSetUp faults id config root ∧ SetUpFails faults config root) ∧
      ((∃ root' path, newAt faults rootPath id config root = (root', .ok path)) ∨
        ∃ e, newAt faults rootPath id config root = (root, .error e))) ∨
    (ReachesSetUp faults id config root ∧ SetUpFails faults config root ∧
      (∀ name ∈ requiredControllers config, name ∈ root.controllers) ∧
      ∃ root' e, newAt faults rootPath id config root = (root', .error e) ∧
        root'.controllers = root.controllers ∧
        root'.enabled = (root.enabling (requiredControllers config)).enabled ∧
        root'.cgroup = none) := by
  rw [newAt]
  cases hid : State.validateId id with
  | error e => exact .inl ⟨by simp [ReachesSetUp, hid], .inr ⟨_, rfl⟩⟩
  | ok u =>
    cases hconfig : config.validate with
    | error e =>
      refine .inl ⟨fun h ↦ ?_, .inr ⟨_, rfl⟩⟩
      rw [CgroupConfig.validate_eq_ok_iff.mpr h.1.2.1] at hconfig
      simp at hconfig
    | ok u =>
      by_cases hroot : faults.createRoot = true
      · simp only [if_pos hroot]
        exact .inl ⟨by simp [ReachesSetUp, hroot], .inr ⟨_, rfl⟩⟩
      simp only [if_neg hroot]
      rcases enableRequiredControllers_cases faults rootPath config root with
        ⟨hcan, e, henable⟩ | ⟨hcan, hall, activation, henable, hrollback⟩
      · rw [henable]
        exact .inl ⟨fun h ↦ hcan h.1.2.2.2, .inr ⟨_, rfl⟩⟩
      rw [henable]
      have hreaches : ReachesSetUp faults id config root :=
        ⟨hid, CgroupConfig.validate_eq_ok_iff.mp hconfig, by simpa using hroot, hcan⟩
      have hsetUp := isSetUpStep_setUp faults (rootPath ++ "/" ++ id) config
      have hcontrollers := hsetUp.controllers (root.enabling (requiredControllers config))
      have henabled := hsetUp.enabled (root.enabling (requiredControllers config))
      have hfails := hsetUp.result (root.enabling (requiredControllers config))
      rcases hresult : setUp faults (rootPath ++ "/" ++ id) config
        (root.enabling (requiredControllers config)) with ⟨root', e | u⟩
      · rw [hresult] at hcontrollers henabled hfails
        simp only [hresult, hrollback]
        exact .inr ⟨hreaches, hfails.mp ⟨e, rfl⟩, hall, _, _, rfl, hcontrollers, henabled, rfl⟩
      · rw [hresult] at hfails
        simp only [hresult]
        refine .inl ⟨fun h ↦ ?_, .inl ⟨_, _, rfl⟩⟩
        obtain ⟨e, he⟩ := hfails.mpr h.2
        simp at he

/-- **What a failed `new_at` leaves behind.**  The controllers that are enabled and the directory are
as before exactly if the setup cannot fail, or had no controller to enable and found no directory. -/
theorem newAt_atomic_iff {faults : CgroupFaults} {rootPath id : String} {config : CgroupConfig}
    {root : CgroupRoot} :
    (∀ root' e, newAt faults rootPath id config root = (root', .error e) →
        root'.enabledControllers = root.enabledControllers ∧
          root'.cgroup.isSome = root.cgroup.isSome) ↔
      (ReachesSetUp faults id config root → SetUpFails faults config root →
        (∀ name ∈ requiredControllers config, root.enabled name = true) ∧ root.cgroup = none) := by
  rcases newAt_cases faults rootPath id config root with
    ⟨hfails, ⟨root', path, hnew⟩ | ⟨e, hnew⟩⟩ |
      ⟨hreaches, hfails, hall, root', e, hnew, hcontrollers, henabled, hcgroup⟩
  · rw [hnew]
    exact ⟨fun _ h₁ h₂ ↦ absurd ⟨h₁, h₂⟩ hfails, fun _ _ _ h ↦ by simp at h⟩
  · rw [hnew]
    refine ⟨fun _ h₁ h₂ ↦ absurd ⟨h₁, h₂⟩ hfails, fun _ _ _ h ↦ ?_⟩
    obtain ⟨rfl, -⟩ := Prod.mk.inj h
    exact ⟨rfl, rfl⟩
  · rw [hnew]
    constructor
    · intro h _ _
      obtain ⟨hsame, hdirectory⟩ := h _ _ rfl
      refine ⟨fun name hname ↦ ?_, by simpa [hcgroup] using hdirectory.symm⟩
      have hmem : name ∈ root'.enabledControllers := by
        rw [enabledControllers, hcontrollers, henabled]
        simp [enabling, hname, hall name hname]
      rw [hsame] at hmem
      exact (List.mem_filter.mp hmem).2
    · intro h root'' e' heq
      obtain ⟨rfl, -⟩ := Prod.mk.inj heq
      obtain ⟨hrequired, hdirectory⟩ := h hreaches hfails
      rw [enabledControllers, hcontrollers, henabled, enabling_of_enabled hrequired, hcgroup,
        hdirectory]
      exact ⟨rfl, rfl⟩

/-- A root with the three controllers, and none of them enabled. -/
def freshRoot : CgroupRoot where
  controllers := ["cpu", "memory", "pids"]
  isController name hname := by
    simp only [List.mem_cons, List.not_mem_nil, or_false] at hname
    rcases hname with rfl | rfl | rfl <;>
      exact ⟨by decide, by simp; decide, by decide⟩
  enabled _ := false
  cgroup := none

/-- `memory.max` cannot be written, and the memory controller stays enabled. -/
theorem memory_controller_stays_enabled :
    ∃ root' e,
      newAt { memoryMax := true } "/sys/fs/cgroup/crun-rs" "web" { memoryLimit := some 268435456 }
        freshRoot = (root', .error e) ∧
      freshRoot.enabledControllers = [] ∧ root'.enabledControllers = ["memory"] := by
  exact ⟨_, _, rfl, rfl, rfl⟩

end Cgroup

end CrunRs
