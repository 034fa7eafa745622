import CrunRs.Error
import CrunRs.Lib.Forest
import CrunRs.Lib.Text
import Mathlib.Data.List.Pairwise

/-!
# The process tree of a container

`collect_process_tree` of `trace.rs`: the processes below the init process of a container, read out of
`/proc` down to a depth of 16.

In a forest of processes no process is met twice, so the set of those visited decides nothing and the
walk is a recursion on what it reads (`collectProcessNode_eq`).  It reads the children of the main
thread, and the kernel records a child under the thread that created it.  It passes over a child that
cannot be read, and marks every process at the last depth as truncated, also one without children.
`collectProcessTree_complete_iff` says of which containers the tree is complete all the same.
-/

set_option autoImplicit false

namespace CrunRs.Trace

open Forest

/-! ## What `/proc` shows -/

/-- The processes there are.  None of them changes. -/
structure Processes where
  pids : List Int
  threads : Int → List Int
  /-- The children of a process, by the thread that created them. -/
  children : Int → Int → List Int
  cmdline : Int → List UInt8
  comm : Int → ByteArray
  pid_range : ∀ pid ∈ pids, 0 < pid ∧ pid < 2147483648
  main_thread : ∀ pid ∈ pids, pid ∈ threads pid
  of_mem_children : ∀ pid tid, ∀ child ∈ children pid tid,
    pid ∈ pids ∧ tid ∈ threads pid ∧ child ∈ pids
  forest : IsForest fun pid ↦ (threads pid).flatMap (children pid)

namespace Processes

/-- All children of a process. -/
def allChildren (procs : Processes) (pid : Int) : List Int :=
  (procs.threads pid).flatMap (procs.children pid)

/-- `/proc/<pid>/task/<tid>/children`: the pids, each with a space behind it. -/
def childrenFile (procs : Processes) (pid tid : Int) : Option (List Char) :=
  if pid ∈ procs.pids ∧ tid ∈ procs.threads pid then
    some ((procs.children pid tid).flatMap fun child ↦ Text.decimal child ++ [' '])
  else none

/-- `/proc/<pid>/cmdline`. -/
def cmdlineFile (procs : Processes) (pid : Int) : Option (List UInt8) :=
  if pid ∈ procs.pids then some (procs.cmdline pid) else none

/-- `/proc/<pid>/comm`. -/
def commFile (procs : Processes) (pid : Int) : Option ByteArray :=
  if pid ∈ procs.pids then some (procs.comm pid) else none

end Processes

/-! ## The walk -/

/-- `MAX_PROCESS_TREE_DEPTH`. -/
def maxProcessTreeDepth : Nat := 16

inductive ProcessNode
  | mk (pid : Int) (command : String) (children : List ProcessNode) (truncated : Bool)

namespace ProcessNode

def pid : ProcessNode → Int
  | mk pid _ _ _ => pid

def children : ProcessNode → List ProcessNode
  | mk _ _ children _ => children

def truncated : ProcessNode → Bool
  | mk _ _ _ truncated => truncated

mutual

/-- A node and those below it. -/
def nodes : ProcessNode → List ProcessNode
  | mk pid command children truncated => mk pid command children truncated :: nodesOf children

def nodesOf : List ProcessNode → List ProcessNode
  | [] => []
  | node :: rest => node.nodes ++ nodesOf rest

end

/-- The pids in a tree. -/
def pids (node : ProcessNode) : List Int := node.nodes.map pid

theorem nodesOf_eq (children : List ProcessNode) : nodesOf children = children.flatMap nodes := by
  induction children with
  | nil => rfl
  | cons child rest ih => rw [nodesOf, ih, List.flatMap_cons]

theorem pids_mk (pid : Int) (command : String) (children : List ProcessNode) (truncated : Bool) :
    (mk pid command children truncated).pids = pid :: children.flatMap pids := by
  rw [pids, nodes, nodesOf_eq, List.map_cons, List.map_flatMap]
  rfl

end ProcessNode

variable (lossy : List UInt8 → String) (procs : Processes)

/-- `parse_cmdline`.  `lossy` is what `from_utf8_lossy` makes of bytes. -/
def parseCmdline (cmdline : List UInt8) : String :=
  " ".intercalate (((cmdline.splitOnP (· == 0)).filter (· ≠ [])).map lossy)

/-- `read_command`. -/
def readCommand (pid : Int) : Except TraceError String :=
  let command := ((procs.cmdlineFile pid).map (parseCmdline lossy)).getD ""
  if command ≠ "" then .ok command
  else match (procs.commFile pid).bind Text.decode with
    | some value => .ok (String.ofList (Text.trim value))
    | none => .error (.context s!"failed to read process command: /proc/{pid}/comm")

/-- `read_child_pids`. -/
def readChildPids (pid : Int) : Except TraceError (List Int) :=
  match procs.childrenFile pid pid with
  | some content => .ok ((Text.splitWhitespace content).filterMap Text.parseI32)
  | none =>
    .error (.context s!"failed to read process children: /proc/{pid}/task/{pid}/children")

/-- The loop of `collect_process_node`: a child that cannot be collected is passed over. -/
def collectChildren (collect : Int → List Int → List Int × Except TraceError ProcessNode) :
    List Int → List Int → List Int × List ProcessNode
  | [], visited => (visited, [])
  | pid :: rest, visited =>
    let (visited, result) := collect pid visited
    let (visited, children) := collectChildren collect rest visited
    (visited, result.toOption.toList ++ children)

/-- `collect_process_node`, with the pids visited before it and after it.  The depth is counted down:
`left` is what is left of `MAX_PROCESS_TREE_DEPTH`. -/
def collectProcessNode : Nat → Int → List Int → List Int × Except TraceError ProcessNode
  | 0, pid, visited =>
    if pid ∈ visited then
      (visited, .ok (.mk pid ((readCommand lossy procs pid).toOption.getD "<cycle>") [] false))
    else (pid :: visited, (readCommand lossy procs pid).map fun command ↦ .mk pid command [] true)
  | left + 1, pid, visited =>
    if pid ∈ visited then
      (visited, .ok (.mk pid ((readCommand lossy procs pid).toOption.getD "<cycle>") [] false))
    else match readChildPids procs pid with
      | .error e => (pid :: visited, .error e)
      | .ok childPids =>
        let (visited, children) :=
          collectChildren (collectProcessNode left) childPids (pid :: visited)
        (visited,
          (readCommand lossy procs pid).map fun command ↦ .mk pid command children false)

/-- `collect_process_tree`. -/
def collectProcessTree (pid : Int) : Except TraceError ProcessNode :=
  (collectProcessNode lossy procs maxProcessTreeDepth pid []).2

/-! ## What is read -/

variable {lossy procs}

/-- The children of the main thread. -/
def Processes.mainChildren (procs : Processes) (pid : Int) : List Int := procs.children pid pid

theorem mainChildren_sublist (pid : Int) :
    (procs.mainChildren pid).Sublist (procs.allChildren pid) := by
  cases hmain : procs.mainChildren pid with
  | nil => exact List.nil_sublist _
  | cons child rest =>
    have hmem : child ∈ procs.children pid pid := by
      rw [← Processes.mainChildren, hmain]
      exact List.mem_cons_self
    obtain ⟨-, hthread, -⟩ := procs.of_mem_children pid pid child hmem
    obtain ⟨front, back, hthreads⟩ := List.append_of_mem hthread
    rw [← hmain, Processes.allChildren, hthreads, List.flatMap_append, List.flatMap_cons]
    exact (List.sublist_append_left _ _).trans (List.sublist_append_right _ _)

theorem isForest_mainChildren : IsForest procs.mainChildren :=
  IsForest.of_sublist procs.forest mainChildren_sublist

theorem readChildPids_eq {pid : Int} (hpid : pid ∈ procs.pids) :
    readChildPids procs pid = .ok (procs.mainChildren pid) := by
  have hwords : ∀ pids : List Int, (∀ pid ∈ pids, 0 < pid ∧ pid < 2147483648) →
      (Text.splitWhitespace (pids.flatMap fun child ↦ Text.decimal child ++ [' '])).filterMap
        Text.parseI32 = pids := by
    intro pids hrange
    induction pids with
    | nil => rfl
    | cons pid pids ih =>
      obtain ⟨⟨hlo, hhi⟩, hrest⟩ := List.forall_mem_cons.mp hrange
      have hplain : ∀ c ∈ Text.decimal pid, Text.isWhitespace c = false := by
        intro c hc
        rcases Text.mem_decimal hc with rfl | hdigit
        · decide
        · exact Text.isWhitespace_of_isDigit hdigit
      rw [List.flatMap_cons, List.append_assoc, List.singleton_append,
        Text.splitWhitespace_append_cons _ (Text.decimal_ne_nil pid) hplain (by decide),
        List.filterMap_cons, Text.parseI32_decimal (by omega) hhi, ih hrest]
  rw [readChildPids, Processes.childrenFile, if_pos ⟨hpid, procs.main_thread pid hpid⟩]
  exact congrArg Except.ok (hwords _ fun child hchild ↦
    procs.pid_range child (procs.of_mem_children pid pid child hchild).2.2)

/-- A process that `read_command` can read: one with a command line, or with a name that is text. -/
def Processes.Readable (lossy : List UInt8 → String) (procs : Processes) (pid : Int) : Prop :=
  parseCmdline lossy (procs.cmdline pid) ≠ "" ∨ (Text.decode (procs.comm pid)).isSome

theorem exists_readCommand_iff {pid : Int} (hpid : pid ∈ procs.pids) :
    (∃ command, readCommand lossy procs pid = .ok command) ↔ procs.Readable lossy pid := by
  rw [readCommand, Processes.cmdlineFile, Processes.commFile, if_pos hpid, if_pos hpid,
    Processes.Readable]
  simp only [Option.map_some, Option.getD_some, Option.bind_some]
  by_cases hcommand : parseCmdline lossy (procs.cmdline pid) = ""
  · rw [if_neg (not_not.mpr hcommand)]
    cases Text.decode (procs.comm pid) <;> simp [hcommand]
  · rw [if_pos hcommand]
    exact iff_of_true ⟨_, rfl⟩ (Or.inl hcommand)

theorem mem_pids_of_below {root a : Int} {depth : Nat} (hroot : root ∈ procs.pids)
    (h : Below procs.allChildren root depth a) : a ∈ procs.pids := by
  cases h with
  | root => exact hroot
  | child _ hmem =>
    obtain ⟨tid, -, hchild⟩ := List.mem_flatMap.mp hmem
    exact (procs.of_mem_children _ tid _ hchild).2.2

theorem mem_pids_of_mem_mainChildren {pid child : Int} (h : child ∈ procs.mainChildren pid) :
    child ∈ procs.pids := (procs.of_mem_children pid pid child h).2.2

/-! ## Without the set of those visited -/

variable (lossy procs) in
/-- The walk as it is where no process is met twice. -/
def plainNode : Nat → Int → Except TraceError ProcessNode
  | 0, pid => (readCommand lossy procs pid).map fun command ↦ .mk pid command [] true
  | left + 1, pid => (readCommand lossy procs pid).map fun command ↦
      .mk pid command ((procs.mainChildren pid).filterMap fun child ↦ (plainNode left child).toOption)
        false

/-- A process is fresh if neither it nor one below it has been visited. -/
def Fresh (procs : Processes) (visited : List Int) (pid : Int) : Prop :=
  ∀ depth a, Below procs.mainChildren pid depth a → a ∉ visited

/-- What a step of the walk makes of a fresh process. -/
structure WalksBelow (procs : Processes) (pid : Int) (visited : List Int)
    (walked : List Int × Except TraceError ProcessNode) (node : Except TraceError ProcessNode) :
    Prop where
  result : walked.2 = node
  visited : ∀ a ∈ walked.1, a ∈ visited ∨ ∃ depth, Below procs.mainChildren pid depth a

/-- The children of a process stay fresh while those in front of them are walked. -/
theorem collectChildren_eq {collect : Int → List Int → List Int × Except TraceError ProcessNode}
    {plain : Int → Except TraceError ProcessNode} {pid : Int}
    (hcollect : ∀ child ∈ procs.mainChildren pid, ∀ visited, Fresh procs visited child →
      WalksBelow procs child visited (collect child visited) (plain child))
    {children visited : List Int} (hsub : ∀ child ∈ children, child ∈ procs.mainChildren pid)
    (hnodup : children.Nodup) (hfresh : ∀ child ∈ children, Fresh procs visited child) :
    (collectChildren collect children visited).2 =
        children.filterMap (fun child ↦ (plain child).toOption) ∧
      ∀ a ∈ (collectChildren collect children visited).1,
        a ∈ visited ∨ ∃ child ∈ children, ∃ depth, Below procs.mainChildren child depth a := by
  induction children generalizing visited with
  | nil => exact ⟨rfl, fun a ha ↦ Or.inl ha⟩
  | cons child rest ih =>
    obtain ⟨hchild, hsubrest⟩ := List.forall_mem_cons.mp hsub
    obtain ⟨hfirst, hnodup⟩ := List.nodup_cons.mp hnodup
    have hwalk := hcollect child hchild visited (hfresh child List.mem_cons_self)
    have hrest : ∀ other ∈ rest, Fresh procs (collect child visited).1 other := by
      intro other hother depth a hbelow ha
      rcases hwalk.visited a ha with ha | ⟨depth', hbelow'⟩
      · exact hfresh other (List.mem_cons_of_mem _ hother) depth a hbelow ha
      · obtain rfl := isForest_mainChildren.branch_unique hchild (hsubrest other hother) hbelow' hbelow
        exact hfirst hother
    obtain ⟨hresult, hvisited⟩ := ih hsubrest hnodup hrest
    rw [collectChildren]
    refine ⟨?_, fun a ha ↦ ?_⟩
    · simp only [hwalk.result, hresult, List.filterMap_cons]
      cases (plain child).toOption <;> rfl
    · rcases hvisited a ha with ha | ⟨other, hother, hbelow⟩
      · rcases hwalk.visited a ha with ha | ⟨depth, hbelow⟩
        · exact Or.inl ha
        · exact Or.inr ⟨child, List.mem_cons_self, depth, hbelow⟩
      · exact Or.inr ⟨other, List.mem_cons_of_mem _ hother, hbelow⟩

/-- **In a forest the walk is a recursion on what it reads.**  The induction is on what is left of the
depth; what has been visited on the way lies in the branches of other children. -/
theorem collectProcessNode_eq {left : Nat} {pid : Int} {visited : List Int} (hpid : pid ∈ procs.pids)
    (hfresh : Fresh procs visited pid) :
    WalksBelow procs pid visited (collectProcessNode lossy procs left pid visited)
      (plainNode lossy procs left pid) := by
  have hself : pid ∉ visited := hfresh 0 pid .root
  induction left generalizing pid visited with
  | zero =>
    rw [collectProcessNode, if_neg hself]
    refine ⟨rfl, fun a ha ↦ ?_⟩
    rcases List.mem_cons.mp ha with rfl | ha
    · exact Or.inr ⟨0, .root⟩
    · exact Or.inl ha
  | succ left ih =>
    have hchildren := @collectChildren_eq procs (collectProcessNode lossy procs left)
      (plainNode lossy procs left) pid
      (fun child hchild visited hfresh ↦
        ih (mem_pids_of_mem_mainChildren hchild) hfresh (hfresh 0 child .root))
      (procs.mainChildren pid) (pid :: visited) (fun _ h ↦ h) (isForest_mainChildren.nodup pid)
      (fun child hchild depth a hbelow ha ↦ by
        rcases List.mem_cons.mp ha with rfl | ha
        · exact isForest_mainChildren.not_below_self (hbelow.of_child hchild)
        · exact hfresh (depth + 1) a (hbelow.of_child hchild) ha)
    obtain ⟨hresult, hvisited⟩ := hchildren
    rw [collectProcessNode, if_neg hself, readChildPids_eq hpid]
    refine ⟨?_, fun a ha ↦ ?_⟩
    · simp only [hresult, plainNode]
    · rcases hvisited a ha with ha | ⟨child, hchild, depth, hbelow⟩
      · rcases List.mem_cons.mp ha with rfl | ha
        · exact Or.inr ⟨0, .root⟩
        · exact Or.inl ha
      · exact Or.inr ⟨depth + 1, hbelow.of_child hchild⟩

theorem collectProcessTree_eq {root : Int} (hroot : root ∈ procs.pids) :
    collectProcessTree lossy procs root = plainNode lossy procs maxProcessTreeDepth root :=
  (collectProcessNode_eq hroot fun _ _ _ ↦ List.not_mem_nil).result

/-! ## What is in the tree -/

theorem plainNode_zero_eq_ok {pid : Int} {node : ProcessNode}
    (h : plainNode lossy procs 0 pid = .ok node) :
    ∃ command, readCommand lossy procs pid = .ok command ∧ node = .mk pid command [] true := by
  rw [plainNode] at h
  cases hcommand : readCommand lossy procs pid with
  | error e => rw [hcommand] at h; cases h
  | ok command => rw [hcommand] at h; exact ⟨command, rfl, (Except.ok.inj h).symm⟩

theorem plainNode_succ_eq_ok {left : Nat} {pid : Int} {node : ProcessNode}
    (h : plainNode lossy procs (left + 1) pid = .ok node) :
    ∃ command children, readCommand lossy procs pid = .ok command ∧
      node = .mk pid command children false ∧
      children = (procs.mainChildren pid).filterMap fun child ↦
        (plainNode lossy procs left child).toOption := by
  rw [plainNode] at h
  cases hcommand : readCommand lossy procs pid with
  | error e => rw [hcommand] at h; cases h
  | ok command => rw [hcommand] at h; exact ⟨command, _, rfl, (Except.ok.inj h).symm, rfl⟩

theorem toOption_eq_some_iff {result : Except TraceError ProcessNode} {node : ProcessNode} :
    result.toOption = some node ↔ result = .ok node := by
  cases result <;> simp [Except.toOption]

theorem pid_of_plainNode {left : Nat} {pid : Int} {node : ProcessNode}
    (h : plainNode lossy procs left pid = .ok node) : node.pid = pid := by
  cases left with
  | zero =>
    obtain ⟨command, -, rfl⟩ := plainNode_zero_eq_ok h
    rfl
  | succ left =>
    obtain ⟨command, children, -, rfl, -⟩ := plainNode_succ_eq_ok h
    rfl

/-- What is said about a process where it is in the tree. -/
structure Placed (lossy : List UInt8 → String) (procs : Processes) (root : Int) (left depth : Nat)
    (n : ProcessNode) : Prop where
  depth_le : depth ≤ left
  below : Below procs.mainChildren root depth n.pid
  truncated : n.truncated = true ↔ depth = left
  readable : ∃ command, readCommand lossy procs n.pid = .ok command
  children : ∀ child ∈ n.children, child.pid ∈ procs.mainChildren n.pid

/-- **Every process in the tree is below the root.** -/
theorem placed_of_mem_nodes {left : Nat} {pid : Int} {node : ProcessNode}
    (h : plainNode lossy procs left pid = .ok node) {n : ProcessNode} (hn : n ∈ node.nodes) :
    ∃ depth, Placed lossy procs pid left depth n := by
  induction left generalizing pid node n with
  | zero =>
    obtain ⟨command, hcommand, rfl⟩ := plainNode_zero_eq_ok h
    obtain rfl := List.mem_singleton.mp hn
    exact ⟨0, Nat.le_refl 0, .root, by simp [ProcessNode.truncated], ⟨command, hcommand⟩,
      fun _ hmem ↦ absurd hmem List.not_mem_nil⟩
  | succ left ih =>
    obtain ⟨command, children, hcommand, rfl, hchildren⟩ := plainNode_succ_eq_ok h
    have hplain : ∀ c ∈ children, ∃ child ∈ procs.mainChildren pid,
        plainNode lossy procs left child = .ok c := by
      intro c hc
      rw [hchildren, List.mem_filterMap] at hc
      obtain ⟨child, hchild, hnode⟩ := hc
      exact ⟨child, hchild, toOption_eq_some_iff.mp hnode⟩
    rw [ProcessNode.nodes, ProcessNode.nodesOf_eq] at hn
    rcases List.mem_cons.mp hn with rfl | hn
    · refine ⟨0, Nat.zero_le _, .root, by simp [ProcessNode.truncated], ⟨command, hcommand⟩,
        fun c hc ↦ ?_⟩
      obtain ⟨child, hchild, hnode⟩ := hplain c hc
      rw [pid_of_plainNode hnode]
      exact hchild
    · obtain ⟨c, hc, hn⟩ := List.mem_flatMap.mp hn
      obtain ⟨child, hchild, hnode⟩ := hplain c hc
      obtain ⟨depth, hplaced⟩ := ih hnode hn
      exact ⟨depth + 1, Nat.succ_le_succ hplaced.depth_le, hplaced.below.of_child hchild,
        by rw [hplaced.truncated, Nat.add_right_cancel_iff], hplaced.readable, hplaced.children⟩

/-- **No process is in the tree twice.**  The branches of different children have nothing in common. -/
theorem nodup_pids_of_plainNode {left : Nat} {pid : Int} {node : ProcessNode}
    (h : plainNode lossy procs left pid = .ok node) : node.pids.Nodup := by
  induction left generalizing pid node with
  | zero =>
    obtain ⟨command, -, rfl⟩ := plainNode_zero_eq_ok h
    exact List.nodup_singleton _
  | succ left ih =>
    obtain ⟨command, children, -, rfl, hchildren⟩ := plainNode_succ_eq_ok h
    have hbelow : ∀ {child : Int} {c : ProcessNode}, plainNode lossy procs left child = .ok c →
        ∀ a ∈ c.pids, ∃ depth, Below procs.mainChildren child depth a := by
      intro child c hnode a ha
      obtain ⟨n, hn, rfl⟩ := List.mem_map.mp ha
      obtain ⟨depth, hplaced⟩ := placed_of_mem_nodes hnode hn
      exact ⟨depth, hplaced.below⟩
    rw [ProcessNode.pids_mk, List.nodup_cons, List.nodup_flatMap, hchildren]
    refine ⟨fun hmem ↦ ?_, fun c hc ↦ ?_, ?_⟩
    · obtain ⟨c, hc, ha⟩ := List.mem_flatMap.mp hmem
      obtain ⟨child, hchild, hnode⟩ := List.mem_filterMap.mp hc
      obtain ⟨depth, hself⟩ := hbelow (toOption_eq_some_iff.mp hnode) pid ha
      exact isForest_mainChildren.not_below_self (hself.of_child hchild)
    · obtain ⟨child, -, hnode⟩ := List.mem_filterMap.mp hc
      exact ih (toOption_eq_some_iff.mp hnode)
    · rw [List.pairwise_filterMap]
      refine (isForest_mainChildren.nodup pid).imp_of_mem fun {a b} ha hb hne c hc c' hc' ↦ ?_
      refine List.disjoint_left.mpr fun x hx hx' ↦ ?_
      obtain ⟨depth, hbelow₁⟩ := hbelow (toOption_eq_some_iff.mp hc) x hx
      obtain ⟨depth', hbelow₂⟩ := hbelow (toOption_eq_some_iff.mp hc') x hx'
      exact hne (isForest_mainChildren.branch_unique ha hb hbelow₁ hbelow₂)

/-- **Where every process can be read, all of them are in the tree.** -/
theorem exists_plainNode {left : Nat} {pid : Int}
    (hread : ∀ depth ≤ left, ∀ a, Below procs.mainChildren pid depth a →
      ∃ command, readCommand lossy procs a = .ok command) :
    ∃ node, plainNode lossy procs left pid = .ok node ∧
      ∀ depth ≤ left, ∀ a, Below procs.mainChildren pid depth a → a ∈ node.pids := by
  obtain ⟨command, hcommand⟩ := hread 0 (Nat.zero_le _) pid .root
  induction left generalizing pid command with
  | zero =>
    refine ⟨.mk pid command [] true, by rw [plainNode, hcommand]; rfl, fun depth hdepth a hbelow ↦ ?_⟩
    obtain rfl := Nat.le_zero.mp hdepth
    cases hbelow
    exact List.mem_singleton_self _
  | succ left ih =>
    have hchild : ∀ child ∈ procs.mainChildren pid, ∃ node,
        plainNode lossy procs left child = .ok node ∧
          ∀ depth ≤ left, ∀ a, Below procs.mainChildren child depth a → a ∈ node.pids := by
      intro child hchild
      obtain ⟨command', hcommand'⟩ := hread 1 (by omega) child (Below.root.child hchild)
      exact ih (fun depth hdepth a hbelow ↦
        hread (depth + 1) (by omega) a (hbelow.of_child hchild)) command' hcommand'
    refine ⟨_, by rw [plainNode, hcommand]; rfl, fun depth hdepth a hbelow ↦ ?_⟩
    cases depth with
    | zero =>
      cases hbelow
      exact List.mem_cons_self
    | succ depth =>
      obtain ⟨child, hmem, hbelow⟩ := hbelow.exists_child
      obtain ⟨c, hnode, hall⟩ := hchild child hmem
      have hc : c ∈ (procs.mainChildren pid).filterMap fun child ↦
          (plainNode lossy procs left child).toOption :=
        List.mem_filterMap.mpr ⟨child, hmem, toOption_eq_some_iff.mpr hnode⟩
      rw [ProcessNode.pids_mk]
      exact List.mem_cons_of_mem _ (List.mem_flatMap.mpr ⟨c, hc, hall depth (by omega) a hbelow⟩)

/-! ## Complete trees -/

namespace Processes

/-- A tree that holds exactly the processes down to the last depth, each once and under its parent, and
is marked where there are more. -/
structure Complete (procs : Processes) (root : Int) (node : ProcessNode) : Prop where
  pid : node.pid = root
  mem : ∀ pid, pid ∈ node.pids ↔
    ∃ depth ≤ maxProcessTreeDepth, Below procs.allChildren root depth pid
  nodup : node.pids.Nodup
  parent : ∀ n ∈ node.nodes, ∀ child ∈ n.children, child.pid ∈ procs.allChildren n.pid
  truncated : ∀ n ∈ node.nodes, n.truncated = true ↔
    ∃ child ∈ procs.allChildren n.pid, child ∉ node.pids

/-- The processes whose tree is complete: above the last depth only main threads have created others,
every process can be read, and those at the last depth have children. -/
structure Shown (lossy : List UInt8 → String) (procs : Processes) (root : Int) : Prop where
  mainThread : ∀ depth < maxProcessTreeDepth, ∀ pid, Below procs.allChildren root depth pid →
    ∀ tid ∈ procs.threads pid, tid ≠ pid → procs.children pid tid = []
  readable : ∀ depth ≤ maxProcessTreeDepth, ∀ pid, Below procs.allChildren root depth pid →
    procs.Readable lossy pid
  deepest : ∀ pid, Below procs.allChildren root maxProcessTreeDepth pid → procs.allChildren pid ≠ []

end Processes

theorem below_of_mainChildren {root a : Int} {depth : Nat}
    (h : Below procs.mainChildren root depth a) : Below procs.allChildren root depth a :=
  h.mono fun pid _ hc ↦ (mainChildren_sublist pid).subset hc

theorem Processes.Shown.below {root a : Int} {depth : Nat} (hshown : procs.Shown lossy root)
    (hdepth : depth ≤ maxProcessTreeDepth) (h : Below procs.allChildren root depth a) :
    Below procs.mainChildren root depth a := by
  induction h with
  | root => exact .root
  | @child depth parent child hparent hmem ih =>
    obtain ⟨tid, htid, hchild⟩ := List.mem_flatMap.mp hmem
    refine (ih (by omega)).child ?_
    by_cases hmain : tid = parent
    · rwa [hmain] at hchild
    · rw [hshown.mainThread depth (by omega) parent hparent tid htid hmain] at hchild
      exact absurd hchild List.not_mem_nil

/-- A child has been created by one thread. -/
theorem children_disjoint {pid tid child : Int} (htid : tid ∈ procs.threads pid) (hne : tid ≠ pid)
    (hchild : child ∈ procs.children pid tid) : child ∉ procs.mainChildren pid := by
  intro hmain
  obtain ⟨-, hthread, -⟩ := procs.of_mem_children pid pid child hmain
  have hpairwise := (List.nodup_flatMap.mp (procs.forest.nodup pid)).2
  have hsymm : Std.Symm (Function.onFun List.Disjoint (procs.children pid)) :=
    ⟨fun _ _ h ↦ List.disjoint_symm h⟩
  have hdisjoint := hpairwise.forall htid hthread hne
  exact List.disjoint_left.mp hdisjoint hchild hmain

/-- Nothing that is near enough is missing from a complete tree. -/
theorem Processes.Complete.exists_placed {root : Int} {node : ProcessNode}
    (hcomplete : procs.Complete root node)
    (hnode : plainNode lossy procs maxProcessTreeDepth root = .ok node) {depth : Nat}
    (hdepth : depth ≤ maxProcessTreeDepth) {pid : Int}
    (hbelow : Below procs.allChildren root depth pid) :
    ∃ n ∈ node.nodes, n.pid = pid ∧ Placed lossy procs root maxProcessTreeDepth depth n := by
  obtain ⟨n, hn, rfl⟩ := List.mem_map.mp ((hcomplete.mem pid).mpr ⟨depth, hdepth, hbelow⟩)
  obtain ⟨depth', hplaced⟩ := placed_of_mem_nodes hnode hn
  obtain rfl := procs.forest.depth_unique hbelow (below_of_mainChildren hplaced.below)
  exact ⟨n, hn, rfl, hplaced⟩

theorem shown_of_complete {root : Int} {node : ProcessNode} (hroot : root ∈ procs.pids)
    (hnode : plainNode lossy procs maxProcessTreeDepth root = .ok node)
    (hcomplete : procs.Complete root node) : procs.Shown lossy root := by
  refine ⟨fun depth hdepth pid hbelow tid htid hne ↦ ?_, fun depth hdepth pid hbelow ↦ ?_,
    fun pid hbelow ↦ ?_⟩
  · by_contra hchildren
    obtain ⟨child, hchild⟩ := List.exists_mem_of_ne_nil _ hchildren
    have hall : child ∈ procs.allChildren pid := List.mem_flatMap.mpr ⟨tid, htid, hchild⟩
    -- the child would have to be in the tree as one of the main thread
    obtain ⟨n, hn, rfl, hplaced⟩ := hcomplete.exists_placed hnode hdepth (hbelow.child hall)
    cases hplaced.below with
    | child _ hmain =>
      have hparent := procs.forest.parent hall ((mainChildren_sublist _).subset hmain)
      exact children_disjoint htid hne hchild (hparent ▸ hmain)
  · obtain ⟨n, hn, rfl, hplaced⟩ := hcomplete.exists_placed hnode hdepth hbelow
    exact (exists_readCommand_iff (mem_pids_of_below hroot hbelow)).mp hplaced.readable
  · obtain ⟨n, hn, rfl, hplaced⟩ := hcomplete.exists_placed hnode (Nat.le_refl _) hbelow
    obtain ⟨child, hchild, -⟩ := (hcomplete.truncated n hn).mp (hplaced.truncated.mpr rfl)
    exact List.ne_nil_of_mem hchild

theorem exists_complete_of_shown {root : Int} (hroot : root ∈ procs.pids)
    (hshown : procs.Shown lossy root) :
    ∃ node, plainNode lossy procs maxProcessTreeDepth root = .ok node ∧ procs.Complete root node := by
  obtain ⟨node, hnode, hall⟩ := exists_plainNode fun depth hdepth a hbelow ↦
    (exists_readCommand_iff (mem_pids_of_below hroot (below_of_mainChildren hbelow))).mpr
      (hshown.readable depth hdepth a (below_of_mainChildren hbelow))
  have hmem : ∀ pid, pid ∈ node.pids ↔
      ∃ depth ≤ maxProcessTreeDepth, Below procs.allChildren root depth pid := by
    intro pid
    constructor
    · intro hpid
      obtain ⟨n, hn, rfl⟩ := List.mem_map.mp hpid
      obtain ⟨depth, hplaced⟩ := placed_of_mem_nodes hnode hn
      exact ⟨depth, hplaced.depth_le, below_of_mainChildren hplaced.below⟩
    · rintro ⟨depth, hdepth, hbelow⟩
      exact hall depth hdepth pid (hshown.below hdepth hbelow)
  refine ⟨node, hnode, pid_of_plainNode hnode, hmem, nodup_pids_of_plainNode hnode,
    fun n hn child hchild ↦ ?_, fun n hn ↦ ?_⟩
  · obtain ⟨depth, hplaced⟩ := placed_of_mem_nodes hnode hn
    exact (mainChildren_sublist _).subset (hplaced.children child hchild)
  · obtain ⟨depth, hplaced⟩ := placed_of_mem_nodes hnode hn
    have hbelow := below_of_mainChildren hplaced.below
    rw [hplaced.truncated]
    constructor
    · rintro rfl
      obtain ⟨child, hchild⟩ := List.exists_mem_of_ne_nil _ (hshown.deepest n.pid hbelow)
      refine ⟨child, hchild, fun hin ↦ ?_⟩
      obtain ⟨depth, hdepth, hbelow'⟩ := (hmem child).mp hin
      have hunique := procs.forest.depth_unique hbelow' (hbelow.child hchild)
      omega
    · rintro ⟨child, hchild, hout⟩
      have hdepth := hplaced.depth_le
      by_contra hne
      exact hout ((hmem child).mpr ⟨depth + 1, by omega, hbelow.child hchild⟩)

/-- **The tree of a container is complete if and only if its processes are shown that way.** -/
theorem collectProcessTree_complete_iff (lossy : List UInt8 → String) (procs : Processes) {root : Int}
    (hroot : root ∈ procs.pids) :
    (∃ node, collectProcessTree lossy procs root = .ok node ∧ procs.Complete root node) ↔
      procs.Shown lossy root := by
  rw [collectProcessTree_eq hroot]
  constructor
  · rintro ⟨node, hnode, hcomplete⟩
    exact shown_of_complete hroot hnode hcomplete
  · exact exists_complete_of_shown hroot

/-- The children of process 1, created by its thread 7. -/
def secondThreadChildren (pid tid : Int) : List Int := if pid = 1 ∧ tid = 7 then [2] else []

theorem mem_secondThreadChildren {pid tid child : Int} :
    child ∈ secondThreadChildren pid tid ↔ pid = 1 ∧ tid = 7 ∧ child = 2 := by
  rw [secondThreadChildren]
  split_ifs with h
  · simp [h]
  · refine iff_of_false List.not_mem_nil ?_
    rintro ⟨hpid, htid, -⟩
    exact h ⟨hpid, htid⟩

/-- A process with two threads, of which the second one has created the only other process. -/
def twoProcesses : Processes where
  pids := [1, 2]
  threads := fun pid ↦ [pid, 7]
  children := secondThreadChildren
  cmdline := fun _ ↦ []
  comm := fun _ ↦ Text.encode ['s', 'h']
  pid_range := by decide
  main_thread := fun _ _ ↦ List.mem_cons_self
  of_mem_children := by
    intro pid tid child hchild
    obtain ⟨rfl, rfl, rfl⟩ := mem_secondThreadChildren.mp hchild
    decide
  forest := by
    have hchild : ∀ {pid child : Int}, child ∈ [pid, 7].flatMap (secondThreadChildren pid) →
        pid = 1 ∧ child = 2 := by
      intro pid child h
      obtain ⟨tid, -, hmem⟩ := List.mem_flatMap.mp h
      obtain ⟨hpid, -, hchild⟩ := mem_secondThreadChildren.mp hmem
      exact ⟨hpid, hchild⟩
    refine ⟨fun pid ↦ ?_, fun h h' ↦ (hchild h).1.trans (hchild h').1.symm,
      ⟨Int.toNat, fun pid child h ↦ ?_⟩⟩
    · by_cases hpid : pid = 1
      · rw [hpid]
        decide
      · simp [secondThreadChildren, hpid]
    · obtain ⟨rfl, rfl⟩ := hchild h
      decide

/-- Nothing has a command line, and everything is a shell. -/
theorem readCommand_shell {procs : Processes} (lossy : List UInt8 → String)
    (hcmdline : ∀ pid, procs.cmdline pid = []) (hcomm : ∀ pid, procs.comm pid = Text.encode ['s', 'h'])
    {pid : Int} (hpid : pid ∈ procs.pids) : readCommand lossy procs pid = .ok "sh" := by
  rw [readCommand, Processes.cmdlineFile, Processes.commFile, if_pos hpid, if_pos hpid, hcmdline, hcomm,
    Option.bind_some, Text.decode_encode]
  rfl

theorem readCommand_twoProcesses (lossy : List UInt8 → String) {pid : Int}
    (hpid : pid ∈ twoProcesses.pids) : readCommand lossy twoProcesses pid = .ok "sh" :=
  readCommand_shell lossy (fun _ ↦ rfl) (fun _ ↦ rfl) hpid

/-- The children of the processes 1 and 2, all created by their main threads. -/
def familyChildren (pid tid : Int) : List Int :=
  if tid = pid then (if pid = 1 then [2, 4] else if pid = 2 then [3] else []) else []

theorem mem_familyChildren {pid tid child : Int} : child ∈ familyChildren pid tid ↔
    tid = pid ∧ (pid = 1 ∧ (child = 2 ∨ child = 4) ∨ pid = 2 ∧ child = 3) := by
  rw [familyChildren]
  split_ifs with htid hone htwo
  · simp [htid, hone]
  · simp [htid, htwo]
  · simp [hone, htwo]
  · simp [htid]

/-- A process with two threads, two children and a grandchild. -/
def family : Processes where
  pids := [1, 2, 3, 4]
  threads := fun pid ↦ if pid = 1 then [1, 7] else [pid]
  children := familyChildren
  cmdline := fun _ ↦ []
  comm := fun _ ↦ Text.encode ['s', 'h']
  pid_range := by decide
  main_thread := by decide
  of_mem_children := by
    intro pid tid child hchild
    obtain ⟨rfl, ⟨rfl, rfl | rfl⟩ | ⟨rfl, rfl⟩⟩ := mem_familyChildren.mp hchild <;> decide
  forest := by
    have hchild : ∀ {pid child : Int},
        child ∈ (if pid = 1 then [1, 7] else [pid]).flatMap (familyChildren pid) →
          pid = 1 ∧ (child = 2 ∨ child = 4) ∨ pid = 2 ∧ child = 3 := by
      intro pid child h
      obtain ⟨tid, -, hmem⟩ := List.mem_flatMap.mp h
      exact (mem_familyChildren.mp hmem).2
    refine ⟨fun pid ↦ ?_, fun h h' ↦ ?_, ⟨Int.toNat, fun pid child h ↦ ?_⟩⟩
    · by_cases hone : pid = 1
      · rw [hone]
        decide
      · by_cases htwo : pid = 2
        · rw [htwo]
          decide
        · simp [familyChildren, hone, htwo]
    · have := hchild h
      have := hchild h'
      omega
    · have := hchild h
      omega

theorem readCommand_family (lossy : List UInt8 → String) {pid : Int} (hpid : pid ∈ family.pids) :
    readCommand lossy family pid = .ok "sh" :=
  readCommand_shell lossy (fun _ ↦ rfl) (fun _ ↦ rfl) hpid

theorem below_family {depth : Nat} {pid : Int} (h : Below family.allChildren 1 depth pid) :
    depth = 0 ∧ pid = 1 ∨ depth = 1 ∧ (pid = 2 ∨ pid = 4) ∨ depth = 2 ∧ pid = 3 := by
  induction h with
  | root => exact Or.inl ⟨rfl, rfl⟩
  | child _ hmem ih =>
    obtain ⟨tid, -, hchild⟩ := List.mem_flatMap.mp hmem
    have := (mem_familyChildren.mp hchild).2
    omega

/-- The tree of the first process has all of them, each under its parent. -/
theorem family_complete :
    collectProcessTree (fun _ ↦ "") family 1 = .ok (.mk 1 "sh"
      [.mk 2 "sh" [.mk 3 "sh" [] false] false, .mk 4 "sh" [] false] false) ∧
    family.Complete 1
      (.mk 1 "sh" [.mk 2 "sh" [.mk 3 "sh" [] false] false, .mk 4 "sh" [] false] false) := by
  have hnode : collectProcessTree (fun _ ↦ "") family 1 = .ok (.mk 1 "sh"
      [.mk 2 "sh" [.mk 3 "sh" [] false] false, .mk 4 "sh" [] false] false) := by
    have hleaf : ∀ left, ∀ pid ∈ family.pids, family.mainChildren pid = [] →
        plainNode (fun _ ↦ "") family (left + 1) pid = .ok (.mk pid "sh" [] false) := by
      intro left pid hpid hnone
      rw [plainNode, readCommand_family _ hpid, hnone]
      rfl
    have hsecond : ∀ left, plainNode (fun _ ↦ "") family (left + 2) 2 =
        .ok (.mk 2 "sh" [.mk 3 "sh" [] false] false) := by
      intro left
      have hchildren : family.mainChildren 2 = [3] := by decide
      rw [plainNode, @readCommand_family _ 2 (by decide), hchildren, List.filterMap_cons,
        hleaf left 3 (by decide) (by decide)]
      rfl
    have hchildren : family.mainChildren 1 = [2, 4] := by decide
    rw [collectProcessTree_eq (by decide), maxProcessTreeDepth, plainNode,
      @readCommand_family _ 1 (by decide), hchildren, List.filterMap_cons, hsecond, List.filterMap_cons,
      hleaf _ 4 (by decide) (by decide)]
    rfl
  have hshown : family.Shown (fun _ ↦ "") 1 := by
    refine ⟨fun depth _ pid _ tid _ hne ↦ if_neg hne, fun depth _ pid hbelow ↦ ?_,
      fun pid hbelow ↦ ?_⟩
    · have hpid := mem_pids_of_below (by decide) hbelow
      exact (exists_readCommand_iff hpid).mp ⟨_, readCommand_family _ hpid⟩
    · have := below_family hbelow
      simp [maxProcessTreeDepth] at this
  obtain ⟨node, hcollect, hcomplete⟩ :=
    (@collectProcessTree_complete_iff (fun _ ↦ "") family 1 (by decide)).mpr hshown
  rw [hnode] at hcollect
  obtain rfl := Except.ok.inj hcollect
  exact ⟨hnode, hcomplete⟩

/-- The tree of process 1 is without the child of its second thread, and is not marked. -/
theorem child_of_second_thread_missing :
    collectProcessTree (fun _ ↦ "") twoProcesses 1 = .ok (.mk 1 "sh" [] false) ∧
      2 ∈ twoProcesses.allChildren 1 ∧
      ¬ ∀ (lossy : List UInt8 → String) (procs : Processes) (root : Int), root ∈ procs.pids →
        ∃ node, collectProcessTree lossy procs root = .ok node ∧ procs.Complete root node := by
  have hnode : collectProcessTree (fun _ ↦ "") twoProcesses 1 = .ok (.mk 1 "sh" [] false) := by
    rw [collectProcessTree_eq (by decide), maxProcessTreeDepth, plainNode,
      readCommand_twoProcesses _ (by decide)]
    rfl
  have hchild : 2 ∈ twoProcesses.allChildren 1 := by decide
  refine ⟨hnode, hchild, fun h ↦ ?_⟩
  obtain ⟨node, hcollect, hcomplete⟩ := h (fun _ ↦ "") twoProcesses 1 (by decide)
  obtain rfl := Except.ok.inj (hnode.symm.trans hcollect)
  have hmem := (hcomplete.mem 2).mpr ⟨1, by decide, Below.root.child hchild⟩
  revert hmem
  decide

end CrunRs.Trace
