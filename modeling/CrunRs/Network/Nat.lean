import CrunRs.Error
import CrunRs.Lib.Lts
import CrunRs.Network.Veth

/-!
# Address translation

The half of `network/mod.rs` that talks to `iptables` and to `ip_forward`.  A bridge container needs
three rules for its subnet, and forwarding turned on.  `setup_nat` adds the rules that are missing
and remembers, in the lease of the container, which ones it added and what `ip_forward` said before;
`cleanup_nat_lease` takes the same things back.

The rules of one subnet concern one container.  Forwarding concerns all of them, and each lease has
its own memory of how it was: the first container saw it off, and the others saw it on.  So it
matters which container goes last.  `forwarding_restored_iff` says when forwarding is on for as long
as some container needs it and back to what it was afterwards: exactly if the container that saw it
off is not cleaned up before the others.
-/

set_option autoImplicit false

namespace CrunRs.Network

open Lts

/-! ## Rules -/

/-- The rules of a subnet. -/
inductive Rule
  | postrouting (subnet : String)
  | forwardSource (subnet : String)
  | forwardDestination (subnet : String)
  deriving DecidableEq, Repr

/-- The arguments that name a rule, with the given action. -/
def Rule.args (action : String) : Rule → List String
  | postrouting subnet => ["-t", "nat", action, "POSTROUTING", "-s", subnet, "-j", "MASQUERADE"]
  | forwardSource subnet => [action, "FORWARD", "-s", subnet, "-j", "ACCEPT"]
  | forwardDestination subnet => [action, "FORWARD", "-d", subnet, "-j", "ACCEPT"]

def Rule.subnet : Rule → String
  | postrouting subnet | forwardSource subnet | forwardDestination subnet => subnet

inductive IptablesCommand
  | check (rule : Rule)
  | append (rule : Rule)
  | delete (rule : Rule)
  deriving DecidableEq, Repr

/-- The command line. -/
def IptablesCommand.args : IptablesCommand → List String
  | check rule => rule.args "-C"
  | append rule => rule.args "-A"
  | delete rule => rule.args "-D"

/-- The rules of the machine, in order and as often as they are there, and `ip_forward` as the kernel
shows it, without the line feed at its end. -/
structure NatHost where
  rules : List Rule
  ipForward : String
  deriving DecidableEq, Repr

/-- What goes wrong: reading and writing `ip_forward`, and a command that does not get to do its
work. -/
structure NatFaults where
  readForward : Bool := false
  writeForward : Bool := false
  iptables : IptablesCommand → Option NetworkError := fun _ ↦ none

/-- `run_iptables`: a rule that is not there can neither be found nor deleted. -/
def runIptables (faults : NatFaults) (rules : List Rule) (command : IptablesCommand) :
    List Rule × Except NetworkError Unit :=
  let failed := .error (.commandFailed "iptables" (" ".intercalate command.args))
  match faults.iptables command with
  | some e => (rules, .error e)
  | none => match command with
    | .check rule => if rule ∈ rules then (rules, .ok ()) else (rules, failed)
    | .append rule => (rules ++ [rule], .ok ())
    | .delete rule => if rule ∈ rules then (rules.erase rule, .ok ()) else (rules, failed)

/-- `ensure_iptables_rule`: was the rule added? -/
def ensureIptablesRule (faults : NatFaults) (rules : List Rule) (rule : Rule) :
    List Rule × Except NetworkError Bool :=
  match runIptables faults rules (.check rule) with
  | (rules, .ok ()) => (rules, .ok false)
  | (rules, .error _) => match runIptables faults rules (.append rule) with
    | (rules, .ok ()) => (rules, .ok true)
    | (rules, .error e) => (rules, .error e)

/-! ## Leases -/

/-- The rules a lease owns, each with the prefix of the message if it cannot be deleted. -/
def NatLease.ownedRules (lease : NatLease) : List (Rule × String) :=
  (if lease.postroutingOwned then
    [(.postrouting lease.subnet, "POSTROUTING cleanup failed: ")] else []) ++
  (if lease.forwardSourceOwned then
    [(.forwardSource lease.subnet, "FORWARD source cleanup failed: ")] else []) ++
  (if lease.forwardDestinationOwned then
    [(.forwardDestination lease.subnet, "FORWARD destination cleanup failed: ")] else [])

theorem mem_ownedRules {lease : NatLease} {owned : Rule × String} (h : owned ∈ lease.ownedRules) :
    owned.1 = .postrouting lease.subnet ∨ owned.1 = .forwardSource lease.subnet ∨
      owned.1 = .forwardDestination lease.subnet := by
  rw [NatLease.ownedRules, List.mem_append, List.mem_append] at h
  rcases h with (h | h) | h
  · split at h
    · exact Or.inl (congrArg Prod.fst (List.mem_singleton.mp h))
    · simp at h
  · split at h
    · exact Or.inr (Or.inl (congrArg Prod.fst (List.mem_singleton.mp h)))
    · simp at h
  · split at h
    · exact Or.inr (Or.inr (congrArg Prod.fst (List.mem_singleton.mp h)))
    · simp at h

theorem subnet_of_mem_ownedRules {lease : NatLease} {owned : Rule × String}
    (h : owned ∈ lease.ownedRules) : owned.1.subnet = lease.subnet := by
  rcases mem_ownedRules h with hrule | hrule | hrule <;> rw [hrule] <;> rfl

/-- One deletion of `cleanup_nat_lease`. -/
def deleteOwned (faults : NatFaults) (acc : List Rule × List String) (owned : Rule × String) :
    List Rule × List String :=
  match runIptables faults acc.1 (.delete owned.1) with
  | (rules, .ok ()) => (rules, acc.2)
  | (rules, .error e) => (rules, acc.2 ++ [owned.2 ++ e.display])

/-- The last step of `cleanup_nat_lease`: what a lease saw, unless forwarding was on. -/
def restoreForward (faults : NatFaults) (lease : NatLease) (ipForward : String) :
    String × List String :=
  match lease.previousIpForward with
  | none => (ipForward, [])
  | some previous =>
    if previous = "1" then (ipForward, [])
    else if faults.writeForward then (ipForward, ["failed to restore ipv4 forwarding"])
    else (previous, [])

/-- `cleanup_nat_lease`. -/
def cleanupNatLease (faults : NatFaults) (host : NatHost) (lease : NatLease) :
    NatHost × Except NetworkError Unit :=
  let (rules, errors) := lease.ownedRules.foldl (deleteOwned faults) (host.rules, [])
  let (ipForward, restoreErrors) := restoreForward faults lease host.ipForward
  let errors := errors ++ restoreErrors
  (⟨rules, ipForward⟩,
    if errors = [] then .ok () else .error (.context ("; ".intercalate errors)))

/-- The three rules of `setup_nat`, with the lease as far as it got. -/
def setupRules (faults : NatFaults) (rules : List Rule) (lease : NatLease) :
    List Rule × NatLease × Option NetworkError :=
  match ensureIptablesRule faults rules (.postrouting lease.subnet) with
  | (rules, .error e) => (rules, lease, some e)
  | (rules, .ok owned) =>
    let lease := { lease with postroutingOwned := owned }
    match ensureIptablesRule faults rules (.forwardSource lease.subnet) with
    | (rules, .error e) => (rules, lease, some e)
    | (rules, .ok owned) =>
      let lease := { lease with forwardSourceOwned := owned }
      match ensureIptablesRule faults rules (.forwardDestination lease.subnet) with
      | (rules, .error e) => (rules, lease, some e)
      | (rules, .ok owned) => (rules, { lease with forwardDestinationOwned := owned }, none)

/-- `setup_nat`. -/
def setupNat (faults : NatFaults) (host : NatHost) (subnet : String) :
    NatHost × Except NetworkError NatLease :=
  let previousIpForward := if faults.readForward then none else some host.ipForward
  if previousIpForward ≠ some "1" ∧ faults.writeForward then
    (host, .error (.context "failed to enable ipv4 forwarding"))
  else
    let ipForward := if previousIpForward ≠ some "1" then "1" else host.ipForward
    let lease : NatLease :=
      { subnet, postroutingOwned := false, forwardSourceOwned := false
        forwardDestinationOwned := false, previousIpForward }
    match setupRules faults host.rules lease with
    | (rules, lease, none) => (⟨rules, ipForward⟩, .ok lease)
    | (rules, lease, some setupError) =>
      match cleanupNatLease faults ⟨rules, ipForward⟩ lease with
      | (host, .ok ()) => (host, .error setupError)
      | (host, .error cleanupError) =>
        (host, .error (.context ("NAT setup failed: " ++ setupError.display ++
          "; NAT rollback failed: " ++ cleanupError.display)))

/-! ## One rule, whatever fails -/

/-- The rule is not found, and cannot be added. -/
def EnsureFails (faults : NatFaults) (rules : List Rule) (rule : Rule) : Prop :=
  (rule ∉ rules ∨ faults.iptables (.check rule) ≠ none) ∧ faults.iptables (.append rule) ≠ none

/-- The rule that is added, if it is. -/
def addedRule (rule : Rule) (owned : Bool) : List Rule := if owned then [rule] else []

/-- A rule is found, or it is added and owned, or it fails and nothing has changed. -/
theorem ensureIptablesRule_cases (faults : NatFaults) (rules : List Rule) (rule : Rule) :
    (¬ EnsureFails faults rules rule ∧ ∃ owned,
      ensureIptablesRule faults rules rule = (rules ++ addedRule rule owned, .ok owned) ∧
        rule ∈ rules ++ addedRule rule owned) ∨
    (EnsureFails faults rules rule ∧ ∃ e, ensureIptablesRule faults rules rule = (rules, .error e)) := by
  rw [ensureIptablesRule, EnsureFails]
  by_cases hfound : rule ∈ rules ∧ faults.iptables (.check rule) = none
  · left
    have hcheck : runIptables faults rules (.check rule) = (rules, .ok ()) := by
      simp [runIptables, hfound]
    rw [hcheck]
    exact ⟨fun h ↦ h.1.elim (absurd hfound.1) (absurd hfound.2), false,
      by rw [addedRule, if_neg Bool.false_ne_true, List.append_nil],
      List.mem_append_left _ hfound.1⟩
  · have hmissed : rule ∉ rules ∨ faults.iptables (.check rule) ≠ none := not_and_or.mp hfound
    have hcheck : ∃ e, runIptables faults rules (.check rule) = (rules, .error e) := by
      rw [runIptables]
      cases hfault : faults.iptables (.check rule) with
      | some e => exact ⟨_, rfl⟩
      | none =>
        rw [hfault] at hmissed
        dsimp only
        rw [if_neg (hmissed.resolve_right (by simp))]
        exact ⟨_, rfl⟩
    obtain ⟨e, hcheck⟩ := hcheck
    rw [hcheck]
    dsimp only
    rw [runIptables]
    cases happend : faults.iptables (.append rule) with
    | none => exact Or.inl ⟨fun h ↦ h.2 rfl, true, rfl, by simp [addedRule]⟩
    | some e => exact Or.inr ⟨⟨hmissed, by simp⟩, e, rfl⟩

/-! ## The three rules, whatever fails -/

/-- The rules a container needs. -/
def natRules (subnet : String) : List Rule :=
  [.postrouting subnet, .forwardSource subnet, .forwardDestination subnet]

/-- A lease that owns nothing yet. -/
def NatLease.fresh (subnet : String) (previousIpForward : Option String) : NatLease :=
  ⟨subnet, false, false, false, previousIpForward⟩

/-- Another rule in the list makes no difference. -/
theorem ensureFails_append {faults : NatFaults} {rules added : List Rule} {rule : Rule}
    (h : rule ∉ added) : EnsureFails faults (rules ++ added) rule ↔ EnsureFails faults rules rule := by
  rw [EnsureFails, EnsureFails, List.mem_append, or_iff_left h]

theorem map_ownedRules (lease : NatLease) :
    lease.ownedRules.map Prod.fst =
      addedRule (.postrouting lease.subnet) lease.postroutingOwned ++
        addedRule (.forwardSource lease.subnet) lease.forwardSourceOwned ++
        addedRule (.forwardDestination lease.subnet) lease.forwardDestinationOwned := by
  rw [NatLease.ownedRules, List.map_append, List.map_append]
  cases lease.postroutingOwned <;> cases lease.forwardSourceOwned <;>
    cases lease.forwardDestinationOwned <;> rfl

theorem not_mem_addedRule {rule other : Rule} (h : rule ≠ other) (owned : Bool) :
    rule ∉ addedRule other owned := by
  cases owned with
  | false => exact List.not_mem_nil
  | true => exact fun hmem ↦ h (List.mem_singleton.mp hmem)

/-- **However far the rules are set up**, they are those from before and the ones the lease owns; they
are set up to the end if and only if none of them fails; and then all of them are there. -/
theorem setupRules_spec (faults : NatFaults) (rules : List Rule) (subnet : String)
    (previous : Option String) :
    ∃ made error, setupRules faults rules (.fresh subnet previous) =
        (rules ++ made.ownedRules.map Prod.fst, made, error) ∧
      made.subnet = subnet ∧ made.previousIpForward = previous ∧
      (error ≠ none ↔ ∃ rule ∈ natRules subnet, EnsureFails faults rules rule) ∧
      (error = none → ∀ rule ∈ natRules subnet, rule ∈ rules ++ made.ownedRules.map Prod.fst) := by
  rw [setupRules]
  rcases ensureIptablesRule_cases faults rules (.postrouting subnet) with
    ⟨hfirst, first, heq, hmemFirst⟩ | ⟨hfirst, e, heq⟩
  · simp only [NatLease.fresh, heq]
    have hsource : Rule.forwardSource subnet ∉ addedRule (.postrouting subnet) first :=
      not_mem_addedRule (by simp) first
    rcases ensureIptablesRule_cases faults (rules ++ addedRule (.postrouting subnet) first)
      (.forwardSource subnet) with ⟨hsecond, second, heq, hmemSecond⟩ | ⟨hsecond, e, heq⟩
    · simp only [heq]
      have hdestination : Rule.forwardDestination subnet ∉
          addedRule (.postrouting subnet) first ++ addedRule (.forwardSource subnet) second := by
        rw [List.mem_append, not_or]
        exact ⟨not_mem_addedRule (by simp) first, not_mem_addedRule (by simp) second⟩
      rw [List.append_assoc rules]
      rw [ensureFails_append hsource] at hsecond
      rcases ensureIptablesRule_cases faults
        (rules ++ (addedRule (.postrouting subnet) first ++ addedRule (.forwardSource subnet) second))
        (.forwardDestination subnet) with ⟨hthird, third, heq, hmemThird⟩ | ⟨hthird, e, heq⟩
      · rw [ensureFails_append hdestination] at hthird
        simp only [heq]
        have hrules : rules ++ (addedRule (.postrouting subnet) first ++
              addedRule (.forwardSource subnet) second) ++ addedRule (.forwardDestination subnet) third =
            rules ++ (NatLease.mk subnet first second third previous).ownedRules.map Prod.fst := by
          rw [map_ownedRules, List.append_assoc rules]
        refine ⟨⟨subnet, first, second, third, previous⟩, none, by rw [hrules], rfl, rfl,
          by simp [natRules, hfirst, hsecond, hthird], fun _ rule hrule ↦ ?_⟩
        rw [← hrules, ← List.append_assoc rules, List.append_assoc _ _ (addedRule _ third)]
        simp only [natRules, List.mem_cons, List.not_mem_nil, or_false] at hrule
        -- each rule has been there since its own turn
        rcases hrule with rfl | rfl | rfl
        · exact List.mem_append_left _ hmemFirst
        · rw [← List.append_assoc]
          exact List.mem_append_left _ hmemSecond
        · rw [← List.append_assoc, List.append_assoc rules]
          exact hmemThird
      · rw [ensureFails_append hdestination] at hthird
        simp only [heq]
        refine ⟨⟨subnet, first, second, false, previous⟩, some e, ?_, rfl, rfl,
          by simp [natRules, hthird], by simp⟩
        rw [map_ownedRules]
        simp [addedRule]
    · rw [ensureFails_append hsource] at hsecond
      simp only [heq]
      refine ⟨⟨subnet, first, false, false, previous⟩, some e, ?_, rfl, rfl,
        by simp [natRules, hsecond], by simp⟩
      rw [map_ownedRules]
      simp [addedRule]
  · simp only [NatLease.fresh, heq]
    refine ⟨⟨subnet, false, false, false, previous⟩, some e, ?_, rfl, rfl,
      by simp [natRules, hfirst], by simp⟩
    rw [map_ownedRules]
    simp [addedRule]

/-! ## What a setup that succeeds has done -/

variable {faults : NatFaults} {host host' : NatHost} {subnet : String} {lease : NatLease}

/-- **A setup that succeeds**, whatever has failed on the way, has turned forwarding on and remembers
how it was, if it could read it.  The rules are those from before and the ones that its lease owns, and
all that the subnet needs are among them. -/
theorem setupNat_eq_ok (h : setupNat faults host subnet = (host', .ok lease)) :
    host'.ipForward = "1" ∧
      lease.previousIpForward = (if faults.readForward then none else some host.ipForward) ∧
      lease.subnet = subnet ∧ host'.rules = host.rules ++ lease.ownedRules.map Prod.fst ∧
      ∀ rule ∈ natRules subnet, rule ∈ host'.rules := by
  unfold setupNat at h
  dsimp only at h
  have hon : (if (if faults.readForward then none else some host.ipForward) ≠ some "1" then "1"
      else host.ipForward) = "1" := by
    by_cases hread : faults.readForward = true
    · simp [hread]
    · by_cases hone : host.ipForward = "1"
      · simp [hread, hone]
      · simp [hread, hone]
  rw [hon] at h
  generalize (if faults.readForward then none else some host.ipForward) = previous at h ⊢
  split at h
  · cases h
  obtain ⟨made, error, hrules, hsubnet, hprevious, -, hall⟩ :=
    setupRules_spec faults host.rules subnet previous
  rw [NatLease.fresh] at hrules
  rw [hrules] at h
  cases error with
  | none =>
    cases h
    exact ⟨rfl, hprevious, hsubnet, rfl, hall rfl⟩
  | some e =>
    dsimp only at h
    split at h <;> cases h

/-- Cleaning up sets forwarding to what the lease remembers. -/
theorem cleanupNatLease_ipForward (faults : NatFaults) (host : NatHost) (lease : NatLease) :
    (cleanupNatLease faults host lease).1.ipForward =
      (restoreForward faults lease host.ipForward).1 := rfl

theorem restoreForward_eq {previous : String} (h : lease.previousIpForward = some previous)
    (ipForward : String) :
    (restoreForward {} lease ipForward).1 = if previous = "1" then ipForward else previous := by
  rw [restoreForward, h]
  by_cases hon : previous = "1"
  · simp [hon]
  · simp [hon]

/-! ## Containers that come and go -/

/-- The machine, and the leases that are not cleaned up yet, the newest first. -/
structure NatSystem where
  host : NatHost
  live : List NatLease

inductive NatAct
  | setUp (subnet : String)
  | cleanUp (lease : NatLease)

namespace NatSystem

/-- One call, if it succeeds.  A lease is cleaned up at most once. -/
def step (s : NatSystem) : NatAct → Option NatSystem
  | .setUp subnet => match setupNat {} s.host subnet with
    | (host, .ok lease) => some ⟨host, lease :: s.live⟩
    | (_, .error _) => none
  | .cleanUp lease =>
    if lease ∈ s.live then
      match cleanupNatLease {} s.host lease with
      | (host, .ok ()) => some ⟨host, s.live.erase lease⟩
      | (_, .error _) => none
    else none

/-- Forwarding is on as long as a container needs it, and else as it was. -/
def Forwards (initial : String) (s : NatSystem) : Prop :=
  (s.live ≠ [] → s.host.ipForward = "1") ∧ (s.live = [] → s.host.ipForward = initial)

/-- The condition: a lease that saw forwarding off is the last one to be cleaned up. -/
def CleansLast (s : NatSystem) : NatAct → Prop
  | .setUp _ => True
  | .cleanUp lease => lease.previousIpForward = some "1" ∨ s.live = [lease]

instance (initial : String) (s : NatSystem) : Decidable (s.Forwards initial) :=
  inferInstanceAs (Decidable (_ ∧ _))

instance decidableCleansLast (s : NatSystem) : ∀ a, Decidable (s.CleansLast a)
  | .setUp _ => isTrue trivial
  | .cleanUp _ => inferInstanceAs (Decidable (_ ∨ _))

theorem step_setUp {s t : NatSystem} {subnet : String} (h : s.step (.setUp subnet) = some t) :
    ∃ lease, lease.previousIpForward = some s.host.ipForward ∧ t.live = lease :: s.live ∧
      t.host.ipForward = "1" := by
  simp only [step] at h
  split at h
  · rename_i host lease hsetup
    obtain rfl := Option.some.inj h
    obtain ⟨hon, hprevious, _⟩ := setupNat_eq_ok hsetup
    exact ⟨lease, hprevious, rfl, hon⟩
  · simp at h

theorem step_cleanUp {s t : NatSystem} {lease : NatLease} (h : s.step (.cleanUp lease) = some t) :
    lease ∈ s.live ∧ t.live = s.live.erase lease ∧
      t.host.ipForward = (restoreForward {} lease s.host.ipForward).1 := by
  simp only [step] at h
  split at h
  · rename_i hlive
    split at h
    · rename_i host hclean
      obtain rfl := Option.some.inj h
      refine ⟨hlive, rfl, ?_⟩
      rw [← cleanupNatLease_ipForward, hclean]
    · simp at h
  · simp at h

/-! ## The lease that came first -/

/-- The oldest lease saw the initial value, and all later ones saw forwarding on. -/
def FirstSaw (initial : String) (live : List NatLease) : Prop :=
  live = [] ∨ ∃ newer first, live = newer ++ [first] ∧ first.previousIpForward = some initial ∧
    ∀ lease ∈ newer, lease.previousIpForward = some "1"

theorem firstSaw_of_on {live : List NatLease}
    (h : ∀ lease ∈ live, lease.previousIpForward = some "1") : FirstSaw "1" live := by
  rcases List.eq_nil_or_concat' live with hnil | ⟨newer, first, hconcat⟩
  · exact Or.inl hnil
  · rw [hconcat] at h
    refine Or.inr ⟨newer, first, hconcat, h first (by simp), fun lease hlease ↦ ?_⟩
    exact h lease (List.mem_append_left _ hlease)

variable {s t : NatSystem} {initial : String}

/-- A container that comes sees the initial value or, if it is not the first, forwarding on. -/
theorem setUp_spec (hfirst : FirstSaw initial s.live) (hs : s.Forwards initial)
    (h : s.step (.setUp subnet) = some t) :
    t.Forwards initial ∧ FirstSaw initial t.live := by
  obtain ⟨lease, hprevious, hlive, hon⟩ := step_setUp h
  refine ⟨⟨fun _ ↦ hon, fun hnil ↦ ?_⟩, ?_⟩
  · rw [hlive] at hnil
    simp at hnil
  · rw [hlive]
    rcases hfirst with hnil | ⟨newer, first, hconcat, hsaw, hnewer⟩
    · rw [hs.2 hnil] at hprevious
      exact Or.inr ⟨[], lease, by simp [hnil], hprevious, by simp⟩
    · rw [hs.1 (by simp [hconcat])] at hprevious
      refine Or.inr ⟨lease :: newer, first, by simp [hconcat], hsaw, fun l hl ↦ ?_⟩
      rcases List.mem_cons.mp hl with rfl | hl
      · exact hprevious
      · exact hnewer l hl

/-- A container that goes keeps forwarding right exactly if it meets the condition, and then the
oldest lease is still the one that saw the initial value. -/
theorem cleanUp_spec (hfirst : FirstSaw initial s.live) (hs : s.Forwards initial)
    (h : s.step (.cleanUp lease) = some t) :
    (t.Forwards initial ↔ s.CleansLast (.cleanUp lease)) ∧
      (t.Forwards initial → FirstSaw initial t.live) := by
  obtain ⟨hmem, hlive, hforward⟩ := step_cleanUp h
  rcases hfirst with hnil | ⟨newer, first, hconcat, hsaw, hnewer⟩
  · simp [hnil] at hmem
  have hon : s.host.ipForward = "1" := hs.1 (by simp [hconcat])
  by_cases hin : lease ∈ newer
  · -- one of the later ones: nothing is restored, and the first one stays
    have hprevious := hnewer lease hin
    rw [restoreForward_eq hprevious, if_pos rfl, hon] at hforward
    have hrest : t.live = newer.erase lease ++ [first] := by
      rw [hlive, hconcat, List.erase_append_left _ hin]
    have ht : t.Forwards initial := by
      refine ⟨fun _ ↦ hforward, fun hnil ↦ ?_⟩
      simp [hrest] at hnil
    refine ⟨⟨fun _ ↦ Or.inl hprevious, fun _ ↦ ht⟩, fun _ ↦ Or.inr
      ⟨_, first, hrest, hsaw, fun l hl ↦ hnewer l (List.mem_of_mem_erase hl)⟩⟩
  · -- the first one
    have heq : lease = first := by
      rw [hconcat, List.mem_append] at hmem
      exact List.mem_singleton.mp (hmem.resolve_left hin)
    subst heq
    have hrest : t.live = newer := by
      rw [hlive, hconcat, List.erase_append_right _ hin, List.erase_cons_head, List.append_nil]
    rw [restoreForward_eq hsaw, hon] at hforward
    by_cases hinitial : initial = "1"
    · rw [if_pos hinitial] at hforward
      have ht : t.Forwards initial := ⟨fun _ ↦ hforward, fun _ ↦ hforward.trans hinitial.symm⟩
      refine ⟨⟨fun _ ↦ Or.inl (hsaw.trans (congrArg some hinitial)), fun _ ↦ ht⟩, fun _ ↦ ?_⟩
      rw [hrest, hinitial]
      exact firstSaw_of_on hnewer
    · rw [if_neg hinitial] at hforward
      have hlast : t.Forwards initial ↔ newer = [] := by
        constructor
        · intro ht
          by_contra hne
          exact hinitial (hforward.symm.trans (ht.1 (by rw [hrest]; exact hne)))
        · intro hnil
          exact ⟨fun hne ↦ absurd (hrest.trans hnil) hne, fun _ ↦ hforward⟩
      have hcond : s.CleansLast (.cleanUp lease) ↔ newer = [] := by
        rw [CleansLast, hsaw, hconcat]
        simp [hinitial]
      exact ⟨hlast.trans hcond.symm, fun ht ↦ Or.inl (hrest.trans (hlast.mp ht))⟩

/-- **When forwarding is right.**  In every sequence of calls that succeed, forwarding is on while a
container is there and as it was before when none is, exactly if every lease that saw it off is
cleaned up when it is the only one left. -/
theorem forwarding_restored_iff (host : NatHost) {acts : List NatAct} {t : NatSystem}
    (h : exec step ⟨host, []⟩ acts = some t) :
    Throughout step (Forwards host.ipForward) ⟨host, []⟩ acts ↔
      Along step CleansLast ⟨host, []⟩ acts := by
  -- the oldest lease is known only as long as forwarding has been right so far
  refine @throughout_iff_along _ _ step CleansLast (Forwards host.ipForward)
    (fun s ↦ s.Forwards host.ipForward → FirstSaw host.ipForward s.live) ?_ ?_ _ _ _ ?_ ?_ h
  · intro s a s' hfirst hs hstep
    cases a with
    | setUp subnet => exact fun _ ↦ (setUp_spec (hfirst hs) hs hstep).2
    | cleanUp lease => exact (cleanUp_spec (hfirst hs) hs hstep).2
  · intro s a s' hfirst hs hstep
    cases a with
    | setUp subnet => exact ⟨fun _ ↦ trivial, fun _ ↦ (setUp_spec (hfirst hs) hs hstep).1⟩
    | cleanUp lease => exact (cleanUp_spec (hfirst hs) hs hstep).1
  · exact fun _ ↦ Or.inl rfl
  · exact ⟨fun hne ↦ absurd rfl hne, fun _ ↦ rfl⟩

/-! ## Two containers -/

/-- A machine without rules, and with forwarding off. -/
def offHost : NatHost := ⟨[], "0"⟩

/-- The lease of a container that owns its rules. -/
def sampleLease (subnet previous : String) : NatLease where
  subnet := subnet
  postroutingOwned := true
  forwardSourceOwned := true
  forwardDestinationOwned := true
  previousIpForward := some previous

/-- The container that came first goes first, and forwarding is off for the other one. -/
theorem first_out_breaks :
    (exec step ⟨offHost, []⟩ [.setUp "10.88.20.0/24", .setUp "10.88.21.0/24",
        .cleanUp (sampleLease "10.88.20.0/24" "0")]).map (fun s ↦ (s.live, s.host.ipForward)) =
      some ([sampleLease "10.88.21.0/24" "1"], "0") ∧
    ¬ Throughout step (Forwards "0") ⟨offHost, []⟩ [.setUp "10.88.20.0/24",
        .setUp "10.88.21.0/24", .cleanUp (sampleLease "10.88.20.0/24" "0")] := by
  refine ⟨by decide +kernel, fun h ↦ ?_⟩
  have hlast := (((h.2 _ rfl).2 _ rfl).2 _ rfl).1 (by decide +kernel)
  exact absurd hlast (by decide +kernel)

/-- The container that came last goes first. -/
theorem last_out_restores :
    Throughout step (Forwards "0") ⟨offHost, []⟩
      [.setUp "10.88.20.0/24", .setUp "10.88.21.0/24", .cleanUp (sampleLease "10.88.21.0/24" "1"),
        .cleanUp (sampleLease "10.88.20.0/24" "0")] := by
  obtain ⟨t, ht⟩ : ∃ t, exec step ⟨offHost, []⟩
      [.setUp "10.88.20.0/24", .setUp "10.88.21.0/24", .cleanUp (sampleLease "10.88.21.0/24" "1"),
        .cleanUp (sampleLease "10.88.20.0/24" "0")] = some t :=
    Option.isSome_iff_exists.mp (by decide +kernel)
  exact (forwarding_restored_iff offHost ht).mpr (by decide +kernel)

end NatSystem

end CrunRs.Network
