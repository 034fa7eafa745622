import CrunRs.Filesystem.Mounts

/-!
# Setting up the root of a container

`setup_rootfs` of `filesystem/mod.rs`.  It mounts what the bundle declares, makes the rootfs the root,
and then fills in what the bundle left out: `/proc`, `/etc/resolv.conf`, `/dev` and `/dev/shm`.  What
it did is a list of `RootfsEffect`s, and what the host answers a `RootfsAnswers`.

Whether the bundle declares one of the four is a question about strings: a declared destination,
without the slashes at its end, is compared with the path (`declaredDestinations`).  Where a mount
goes is a question about components (`containerMountDestination`), which knows more ways to spell a
path.  So a default is put over a mount of the bundle exactly if every mount that goes there spells
it in another way (`setupRootfs_defaults_iff`).
-/

set_option autoImplicit false

namespace CrunRs.Filesystem

/-! ## What the setup does -/

/-- A call that `setup_rootfs` makes. -/
inductive RootfsEffect
  | bindRootfs (rootfs : OsPath)
  | bundle (effect : MountEffect)
  | createDirAll (path : OsPath)
  | pivotRoot (newRoot putOld : OsPath)
  | chdir (path : String)
  | unmount (path : String)
  | removeDir (path : String)
  | mount (call : MountCall)
  | write (path content : String)
  | mknod (path : String) (major minor mode : Nat)
  | symlink (target link : String)
  deriving DecidableEq

/-- What the host answers. -/
structure RootfsAnswers where
  /-- To the calls of the mounts of the bundle. -/
  mounts : Nat → MountAnswers
  /-- Whether a call fails. -/
  fails : RootfsEffect → Bool
  /-- Whether something is there when the setup looks for it. -/
  present : String → Bool

/-- What was done, and how it ended. -/
abbrev RootfsStep := List RootfsEffect × Except FilesystemError Unit

/-- Steps one after the other, up to the first that fails. -/
def runSteps : List RootfsStep → RootfsStep
  | [] => ([], .ok ())
  | (effects, .error e) :: _ => (effects, .error e)
  | (effects, .ok ()) :: steps => (effects ++ (runSteps steps).1, (runSteps steps).2)

namespace RootfsAnswers

variable (answers : RootfsAnswers)

/-- A call, and the context of its error. -/
def call (effect : RootfsEffect) (context : String) : RootfsStep :=
  ([effect], if answers.fails effect then .error (.context context) else .ok ())

/-- `setup_dns`. -/
def setupDns (declared : List String) : RootfsStep :=
  if "/etc/resolv.conf" ∈ declared then ([], .ok ())
  else runSteps [
    answers.call (.createDirAll (OsPath.ofString "/etc")) "failed to create /etc",
    answers.call (.write "/etc/resolv.conf" "nameserver 1.1.1.1\nnameserver 8.8.8.8\n")
      "failed to write /etc/resolv.conf"]

/-- `create_char_device`: a node, or the one of the host. -/
def createCharDevice (path : String) (major minor mode : Nat) : RootfsStep :=
  if answers.present path then ([], .ok ())
  else if answers.fails (.mknod path major minor mode) then
    match Text.rsplitOnce ['/'] path.toList with
    | none => ([.mknod path major minor mode], .error (.context "invalid device name"))
    | some (_, filename) =>
      let hostPath := "/dev/" ++ String.ofList filename
      runSteps [
        ([.mknod path major minor mode], .ok ()),
        answers.call (.write path "") "failed to write dummy device file",
        answers.call
          (.mount { source := some hostPath, target := OsPath.ofString path, flags := {.bind} })
          ("failed to bind mount host device " ++ hostPath ++ " to " ++ path)]
  else ([.mknod path major minor mode], .ok ())

/-- The mount of `setup_dev_shm`. -/
def shmMount : MountCall where
  source := some "shm"
  target := OsPath.ofString "/dev/shm"
  fstype := some "tmpfs"
  flags := {.nosuid, .nodev, .noexec}
  data := some "mode=1777,size=65536k"

/-- `setup_dev_shm`. -/
def setupDevShm : RootfsStep :=
  runSteps [
    answers.call (.createDirAll (OsPath.ofString "/dev/shm")) "failed to create /dev/shm",
    answers.call (.mount shmMount) "failed to mount tmpfs on /dev/shm"]

/-- `setup_dev_fd_links`. -/
def setupDevFdLinks : RootfsStep :=
  runSteps ([("/proc/self/fd", "/dev/fd"), ("/proc/self/fd/0", "/dev/stdin"),
      ("/proc/self/fd/1", "/dev/stdout"), ("/proc/self/fd/2", "/dev/stderr")].map fun (target, link) ↦
    if answers.present link then ([], .ok ())
    else answers.call (.symlink target link) ("failed to link " ++ link ++ " to " ++ target))

/-- The mount of `setup_dev`. -/
def devMount : MountCall where
  source := some "tmpfs"
  target := OsPath.ofString "/dev"
  fstype := some "tmpfs"
  flags := {.nosuid, .strictatime}
  data := some "mode=755"

/-- `setup_dev`. -/
def setupDev (declared : List String) : RootfsStep :=
  runSteps [
    if "/dev" ∈ declared then ([], .ok ())
    else runSteps [
      answers.call (.createDirAll (OsPath.ofString "/dev")) "failed to create /dev",
      answers.call (.mount devMount) "failed to mount tmpfs on /dev"],
    answers.createCharDevice "/dev/null" 1 3 0o666,
    answers.createCharDevice "/dev/zero" 1 5 0o666,
    answers.createCharDevice "/dev/random" 1 8 0o666,
    answers.createCharDevice "/dev/urandom" 1 9 0o666,
    if "/dev/shm" ∈ declared then ([], .ok ()) else answers.setupDevShm,
    answers.setupDevFdLinks]

/-- The mount of `/proc`. -/
def procMount : MountCall where
  source := some "proc"
  target := OsPath.ofString "/proc"
  fstype := some "proc"
  flags := ∅

/-- The part of `setup_rootfs` that mounts `/proc`. -/
def setupProc (declared : List String) : RootfsStep :=
  if "/proc" ∈ declared then ([], .ok ())
  else runSteps [
    if answers.present "/proc" then ([], .ok ())
    else answers.call (.createDirAll (OsPath.ofString "/proc")) "failed to create /proc",
    answers.call (.mount procMount) "failed to mount proc"]

/-- `remount_root_readonly`. -/
def remountRootReadonly : RootfsStep :=
  answers.call (.mount { target := OsPath.ofString "/", flags := {.bind, .remount, .rdonly} })
    "failed to remount rootfs readonly"

end RootfsAnswers

/-- `normalize_destination`. -/
def normalizeDestination (destination : String) : String :=
  let trimmed := destination.toList.rdropWhile (· == '/')
  if trimmed = [] then "/" else String.ofList trimmed

/-- `declared_destinations`. -/
def declaredDestinations (mounts : List Mount) : List String :=
  mounts.map fun mount ↦ normalizeDestination mount.destination

/-- `setup_rootfs`. -/
def setupRootfs (lossy : ByteArray → String) (answers : RootfsAnswers) (rootfs : OsPath)
    (readonly : Bool) (mounts : List Mount) : RootfsStep :=
  let bundle := setupMounts lossy answers.mounts rootfs mounts
  let oldRoot := rootfs.join (OsPath.ofString ".old_root")
  let declared := declaredDestinations mounts
  runSteps [
    answers.call (.bindRootfs rootfs) "failed to bind mount rootfs",
    (bundle.1.map .bundle, bundle.2),
    answers.call (.createDirAll oldRoot) "failed to create .old_root",
    answers.call (.pivotRoot rootfs oldRoot) "failed to pivot_root",
    answers.call (.chdir "/") "failed to chdir to new root",
    answers.call (.unmount "/.old_root") "failed to unmount old root",
    -- a directory that cannot be removed is only logged
    ([.removeDir "/.old_root"], .ok ()),
    answers.setupProc declared,
    answers.setupDns declared,
    answers.setupDev declared,
    if readonly then answers.remountRootReadonly else ([], .ok ())]

/-! ## The defaults -/

open RootfsAnswers in
/-- What is filled in, and where. -/
def rootfsDefaults : List (String × RootfsEffect) :=
  [("/proc", .mount procMount), ("/dev", .mount devMount), ("/dev/shm", .mount shmMount),
    ("/etc/resolv.conf",
      .write "/etc/resolv.conf" "nameserver 1.1.1.1\nnameserver 8.8.8.8\n")]

theorem snd_eq_iff_fst_eq : ∀ default ∈ rootfsDefaults, ∀ other ∈ rootfsDefaults,
    default.2 = other.2 ↔ default.1 = other.1 := by
  decide

theorem runSteps_ok {steps : List RootfsStep} (h : (runSteps steps).2 = .ok ()) :
    ∀ step ∈ steps, step.2 = .ok () := by
  induction steps with
  | nil => simp
  | cons step steps ih =>
    obtain ⟨effects, result⟩ := step
    cases result with
    | error e => simp [runSteps] at h
    | ok u => exact List.forall_mem_cons.mpr ⟨rfl, ih h⟩

/-- A step that, if it succeeds, fills in what is not declared of some paths, and no other default. -/
def Fills (declared paths : List String) (step : RootfsStep) : Prop :=
  step.2 = .ok () →
    ∀ default ∈ rootfsDefaults, default.2 ∈ step.1 ↔ default.1 ∈ paths ∧ default.1 ∉ declared

section Fills

variable {answers : RootfsAnswers} {declared : List String}

theorem fills_nil : Fills declared [] ([], .ok ()) := fun _ default _ ↦ by simp

/-- A step none of whose effects is a default. -/
theorem fills_of_routine {step : RootfsStep}
    (h : ∀ effect ∈ step.1, ∀ default ∈ rootfsDefaults, default.2 ≠ effect) :
    Fills declared [] step := fun _ default hdefault ↦ by
  simpa using fun hmem ↦ h default.2 hmem default hdefault rfl

theorem fills_cons {step : RootfsStep} {steps : List RootfsStep} {paths paths' : List String}
    (hstep : Fills declared paths step) (hsteps : Fills declared paths' (runSteps steps)) :
    Fills declared (paths ++ paths') (runSteps (step :: steps)) := by
  intro hok default hdefault
  have hresult := runSteps_ok hok step List.mem_cons_self
  obtain ⟨effects, result⟩ := step
  obtain rfl : result = .ok () := hresult
  rw [runSteps, List.mem_append, hstep rfl default hdefault, hsteps hok default hdefault,
    List.mem_append, or_and_right]

theorem fills_runSteps {steps : List RootfsStep} (h : ∀ step ∈ steps, Fills declared [] step) :
    Fills declared [] (runSteps steps) := by
  induction steps with
  | nil => exact fills_nil
  | cons step steps ih =>
    rw [List.forall_mem_cons] at h
    exact fills_cons h.1 (ih h.2)

theorem fills_call {effect : RootfsEffect} {context : String}
    (h : ∀ default ∈ rootfsDefaults, default.2 ≠ effect) :
    Fills declared [] (answers.call effect context) :=
  fills_of_routine (by simpa [RootfsAnswers.call] using h)

/-- The call that fills in a default. -/
theorem fills_call_default {path : String} {effect : RootfsEffect} {context : String}
    (h : (path, effect) ∈ rootfsDefaults) (hdeclared : path ∉ declared) :
    Fills declared [path] (answers.call effect context) := by
  intro _ default hdefault
  have hpaths : default.2 = effect ↔ default.1 = path :=
    snd_eq_iff_fst_eq default hdefault (path, effect) h
  simp only [RootfsAnswers.call, List.mem_singleton, hpaths]
  exact ⟨fun hpath ↦ ⟨hpath, hpath ▸ hdeclared⟩, fun hpath ↦ hpath.1⟩

theorem fills_declared {path : String} (hdeclared : path ∈ declared) :
    Fills declared [path] ([], .ok ()) := fun _ default _ ↦ by
  simpa using fun hpath ↦ hpath ▸ hdeclared

theorem fills_createCharDevice (path : String) (major minor mode : Nat) :
    Fills declared [] (answers.createCharDevice path major minor mode) := by
  have hmknod : Fills declared [] ([.mknod path major minor mode], .ok ()) :=
    fills_of_routine (by simp [rootfsDefaults])
  rw [RootfsAnswers.createCharDevice]
  split
  · exact fills_nil
  split
  · split
    · exact fun herror ↦ by simp at herror
    · refine fills_cons hmknod (fills_cons (fills_call ?_) (fills_cons (fills_call ?_) fills_nil))
      · simp [rootfsDefaults]
      · simp [rootfsDefaults, RootfsAnswers.procMount, RootfsAnswers.devMount,
          RootfsAnswers.shmMount]
  · exact hmknod

theorem fills_setupDevFdLinks : Fills declared [] answers.setupDevFdLinks := by
  refine fills_runSteps fun step hstep ↦ ?_
  obtain ⟨⟨target, link⟩, -, rfl⟩ := List.mem_map.mp hstep
  dsimp only
  split
  · exact fills_nil
  · exact fills_call (by simp [rootfsDefaults])

/-- A default that is filled in unless it is declared, after something else was done. -/
theorem fills_unless_declared {path : String} {effect : RootfsEffect} {context : String}
    {step : RootfsStep} (h : (path, effect) ∈ rootfsDefaults) (hstep : Fills declared [] step) :
    Fills declared [path]
      (if path ∈ declared then ([], .ok ()) else runSteps [step, answers.call effect context]) := by
  split
  · rename_i hdeclared
    exact fills_declared hdeclared
  · rename_i hdeclared
    exact fills_cons hstep (fills_cons (fills_call_default h hdeclared) fills_nil)

theorem fills_setupProc : Fills declared ["/proc"] (answers.setupProc declared) := by
  refine fills_unless_declared (by decide) ?_
  split
  · exact fills_nil
  · exact fills_call (by simp [rootfsDefaults])

theorem fills_setupDns : Fills declared ["/etc/resolv.conf"] (answers.setupDns declared) :=
  fills_unless_declared (by decide) (fills_call (by simp [rootfsDefaults]))

theorem fills_setupDev : Fills declared ["/dev", "/dev/shm"] (answers.setupDev declared) := by
  have hdevice := @fills_createCharDevice answers declared
  have hdev := @fills_unless_declared answers declared "/dev"
    (.mount RootfsAnswers.devMount) "failed to mount tmpfs on /dev" _ (by decide)
    (@fills_call answers declared (.createDirAll (OsPath.ofString "/dev")) "failed to create /dev"
      (by simp [rootfsDefaults]))
  have hshm := @fills_unless_declared answers declared "/dev/shm"
    (.mount RootfsAnswers.shmMount) "failed to mount tmpfs on /dev/shm" _ (by decide)
    (@fills_call answers declared (.createDirAll (OsPath.ofString "/dev/shm"))
      "failed to create /dev/shm" (by simp [rootfsDefaults]))
  exact fills_cons hdev <| fills_cons (hdevice _ _ _ _) <| fills_cons (hdevice _ _ _ _) <|
    fills_cons (hdevice _ _ _ _) <| fills_cons (hdevice _ _ _ _) <| fills_cons hshm <|
    fills_cons fills_setupDevFdLinks fills_nil

theorem fills_setupRootfs {lossy : ByteArray → String} {rootfs : OsPath} {readonly : Bool}
    {mounts : List Mount} :
    Fills (declaredDestinations mounts) ["/proc", "/etc/resolv.conf", "/dev", "/dev/shm"]
      (setupRootfs lossy answers rootfs readonly mounts) := by
  refine fills_cons (fills_call (by simp [rootfsDefaults])) <| fills_cons (fills_of_routine ?_) <|
    fills_cons (fills_call (by simp [rootfsDefaults])) <|
    fills_cons (fills_call (by simp [rootfsDefaults])) <|
    fills_cons (fills_call (by simp [rootfsDefaults])) <|
    fills_cons (fills_call (by simp [rootfsDefaults])) <|
    fills_cons (fills_of_routine (by simp [rootfsDefaults])) <| fills_cons fills_setupProc <|
    fills_cons fills_setupDns <| fills_cons fills_setupDev <|
    @fills_cons _ _ _ [] [] ?_ fills_nil
  · simp [rootfsDefaults]
  · split
    · exact fills_call (by decide)
    · exact fills_nil

end Fills

/-! ## Two ways to compare paths -/

/-- A destination is a path and some slashes. -/
def SpeltAs (path destination : String) : Prop :=
  ∃ n, destination.toList = path.toList ++ List.replicate n '/'

theorem rdropWhile_slash_eq_iff {s t : List Char} (hs : s.getLast? ≠ some '/') :
    t.rdropWhile (· == '/') = s ↔ ∃ n, t = s ++ List.replicate n '/' := by
  constructor
  · rintro rfl
    have hslashes : t.rtakeWhile (· == '/') =
        List.replicate (t.rtakeWhile (· == '/')).length '/' :=
      List.eq_replicate_of_mem fun c hc ↦ by simpa using List.mem_rtakeWhile_imp hc
    refine ⟨(t.rtakeWhile (· == '/')).length, ?_⟩
    rw [← hslashes, List.rdropWhile_append_rtakeWhile]
  · rintro ⟨n, rfl⟩
    induction n with
    | zero =>
      rw [List.replicate_zero, List.append_nil, List.rdropWhile_eq_self_iff]
      intro hne hlast
      rw [List.getLast?_eq_some_getLast hne] at hs
      exact hs (congrArg some (by simpa using hlast))
    | succ n ih =>
      rw [List.replicate_succ', ← List.append_assoc, List.rdropWhile_concat_pos _ _ _ (by simp), ih]

theorem normalizeDestination_eq_iff {path destination : String} (hpath : path ≠ "/")
    (hne : path.toList ≠ []) (hlast : path.toList.getLast? ≠ some '/') :
    normalizeDestination destination = path ↔ SpeltAs path destination := by
  rw [SpeltAs, ← rdropWhile_slash_eq_iff hlast, normalizeDestination]
  split
  · rename_i htrimmed
    rw [htrimmed]
    exact ⟨fun h ↦ absurd h.symm hpath, fun h ↦ absurd h.symm hne⟩
  · exact ⟨fun h ↦ by rw [← h, String.toList_ofList], fun h ↦ by rw [h, String.ofList_toList]⟩

/-- A path of a default is declared exactly if a destination is spelt as it is. -/
theorem mem_declaredDestinations_iff {mounts : List Mount} {default : String × RootfsEffect}
    (h : default ∈ rootfsDefaults) :
    default.1 ∈ declaredDestinations mounts ↔
      ∃ mount ∈ mounts, SpeltAs default.1 mount.destination := by
  have hpath : default.1 ≠ "/" ∧ default.1.toList ≠ [] ∧ default.1.toList.getLast? ≠ some '/' := by
    revert default
    decide
  rw [declaredDestinations, List.mem_map]
  simp only [normalizeDestination_eq_iff hpath.1 hpath.2.1 hpath.2.2]

/-- The mount of one destination goes where the mount of another one would. -/
def ResolvesTo (rootfs : OsPath) (path destination : String) : Prop :=
  ∃ place, containerMountDestination rootfs destination = .ok place ∧
    containerMountDestination rootfs path = .ok place

theorem resolvesTo_iff {rootfs : OsPath} {path destination : String} :
    ResolvesTo rootfs path destination ↔
      UsableDestination destination ∧ UsableDestination path ∧
        (OsPath.ofString destination).components = (OsPath.ofString path).components := by
  have hname (s : String) (part : List UInt8) (hpart : part ∈ (OsPath.ofString s).components) :=
    OsPath.isName_of_mem_components hpart
  simp only [ResolvesTo, containerMountDestination_eq_ok_iff]
  constructor
  · rintro ⟨place, ⟨hdestination, rfl⟩, hpath, hplace⟩
    refine ⟨hdestination, hpath, ?_⟩
    have hcomponents := congrArg OsPath.components hplace
    rw [OsPath.components_join_of_relative (OsPath.isAbsolute_of_lead (OsPath.lead_ofParts (hname _))),
      OsPath.components_join_of_relative (OsPath.isAbsolute_of_lead (OsPath.lead_ofParts (hname _))),
      OsPath.components_ofParts (hname _), OsPath.components_ofParts (hname _)] at hcomponents
    exact (List.append_cancel_left hcomponents).symm
  · rintro ⟨hdestination, hpath, hcomponents⟩
    exact ⟨_, ⟨hdestination, rfl⟩, hpath, by rw [hcomponents]⟩

theorem components_ofString_append_slashes (s : String) (n : Nat) :
    (OsPath.ofString (s ++ String.ofList (List.replicate n '/'))).components =
      (OsPath.ofString s).components := by
  induction n with
  | zero => simp
  | succ n ih =>
    rw [List.replicate_succ', String.ofList_append, ← String.append_assoc, ← ih]
    have hbytes := OsPath.bytes_ofString_append (s ++ String.ofList (List.replicate n '/'))
      (String.ofList ['/'])
    have hslash : (OsPath.ofString (String.ofList ['/'])).bytes = [OsPath.separator] := by decide
    rw [hslash] at hbytes
    have hsplit := OsPath.components_append_separator
      (OsPath.ofString (s ++ String.ofList (List.replicate n '/'))).bytes []
    rw [← hbytes, OsPath.components_nil, List.append_nil] at hsplit
    exact hsplit

/-- A destination that is spelt as a path goes there. -/
theorem SpeltAs.resolvesTo {rootfs : OsPath} {path destination : String}
    (h : SpeltAs path destination) (hpath : UsableDestination path) :
    ResolvesTo rootfs path destination := by
  obtain ⟨n, hn⟩ := h
  obtain rfl : destination = path ++ String.ofList (List.replicate n '/') := by
    rw [← String.toList_inj, hn, String.toList_append, String.toList_ofList]
  have hcomponents := components_ofString_append_slashes path n
  refine resolvesTo_iff.mpr ⟨⟨?_, ?_, ?_⟩, hpath, hcomponents⟩
  · have habsolute := hpath.isAbsolute
    rw [OsPath.isAbsolute, decide_eq_true_iff] at habsolute ⊢
    rw [OsPath.bytes_ofString_append, List.head?_append, habsolute, Option.some_or]
  · rw [hcomponents]
    exact hpath.noParentDir
  · rw [hcomponents]
    exact hpath.notRoot

/-- **When a default covers a mount of the bundle.**  If the setup succeeds, then a default is put
exactly where no mount of the bundle goes, if and only if for each of the four paths, if a mount goes
there then one is spelt as the path is, but for slashes at the end. -/
theorem setupRootfs_defaults_iff {lossy : ByteArray → String} {answers : RootfsAnswers}
    {rootfs : OsPath} {readonly : Bool} {mounts : List Mount} {effects : List RootfsEffect}
    (h : setupRootfs lossy answers rootfs readonly mounts = (effects, .ok ())) :
    (∀ default ∈ rootfsDefaults, default.2 ∈ effects ↔
        ¬ ∃ mount ∈ mounts, ResolvesTo rootfs default.1 mount.destination) ↔
      ∀ default ∈ rootfsDefaults,
        (∃ mount ∈ mounts, ResolvesTo rootfs default.1 mount.destination) →
          ∃ mount ∈ mounts, SpeltAs default.1 mount.destination := by
  have hfills := @fills_setupRootfs answers lossy rootfs readonly mounts
  rw [h] at hfills
  refine forall₂_congr fun default hdefault ↦ ?_
  have hpaths : default.1 ∈ ["/proc", "/etc/resolv.conf", "/dev", "/dev/shm"] := by
    revert default
    decide
  have husable : UsableDestination default.1 := by
    revert default
    decide
  rw [hfills rfl default hdefault, and_iff_right hpaths, mem_declaredDestinations_iff hdefault,
    not_iff_not]
  refine ⟨fun hiff ↦ hiff.mpr, fun himp ↦ ⟨fun ⟨mount, hmount, hspelt⟩ ↦ ?_, himp⟩⟩
  exact ⟨mount, hmount, hspelt.resolvesTo husable⟩

/-- A host on which every call succeeds, and everything is there. -/
def obligingHost : RootfsAnswers where
  mounts _ := ⟨some true, fun _ _ ↦ .ok 3, true, true⟩
  fails _ := false
  present _ := true

/-- A `/proc` of the bundle, with a slash at its end. -/
theorem setupRootfs_defaults_proc :
    ∃ effects,
      setupRootfs (fun _ ↦ "") obligingHost (OsPath.ofString "/rootfs") false
        [⟨"/proc/", none, "proc", []⟩] = (effects, .ok ()) ∧
      ∀ default ∈ rootfsDefaults, default.2 ∈ effects ↔
        ¬ ∃ mount ∈ [(⟨"/proc/", none, "proc", []⟩ : Mount)],
          ResolvesTo (OsPath.ofString "/rootfs") default.1 mount.destination := by
  have hspelt : ∀ default ∈ rootfsDefaults,
      (∃ mount ∈ [(⟨"/proc/", none, "proc", []⟩ : Mount)],
        ResolvesTo (OsPath.ofString "/rootfs") default.1 mount.destination) →
      ∃ mount ∈ [(⟨"/proc/", none, "proc", []⟩ : Mount)], SpeltAs default.1 mount.destination := by
    intro default hdefault hmount
    simp only [List.mem_singleton, exists_eq_left, resolvesTo_iff] at hmount ⊢
    obtain rfl : default = ("/proc", .mount RootfsAnswers.procMount) := by
      revert default
      decide
    exact ⟨1, rfl⟩
  obtain ⟨effects, heffects⟩ : ∃ effects,
      setupRootfs (fun _ ↦ "") obligingHost (OsPath.ofString "/rootfs") false
        [⟨"/proc/", none, "proc", []⟩] = (effects, .ok ()) := ⟨_, rfl⟩
  exact ⟨effects, heffects, (setupRootfs_defaults_iff heffects).mpr hspelt⟩

/-- The bundle mounts its own `/proc`, and another one is mounted over it. -/
theorem proc_is_covered :
    ∃ effects,
      setupRootfs (fun _ ↦ "") obligingHost (OsPath.ofString "/rootfs") false
        [⟨"//proc", none, "proc", []⟩] = (effects, .ok ()) ∧
      .mount RootfsAnswers.procMount ∈ effects ∧
      ResolvesTo (OsPath.ofString "/rootfs") "/proc" "//proc" :=
  ⟨_, rfl, by decide, resolvesTo_iff.mpr (by decide)⟩

end CrunRs.Filesystem
