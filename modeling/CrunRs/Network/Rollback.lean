import CrunRs.Network.Nat

/-!
# Setting up address translation, or not

`setup_nat` adds rules one by one, and what it has added it writes down in a lease.  If it fails
half-way, it cleans that lease up; if it does not, its caller does, later.  The two are one argument:
the rules are always those from before and, behind them, the ones the lease owns
(`setupRules_spec`), and cleaning up takes the owned ones away again (`cleanup_restores`).

A check that fails although the rule is there makes `setup_nat` add a second copy of it, which it then
owns.  Deleting takes one copy away, so that of the rules only their order can change.
-/

set_option autoImplicit false

namespace CrunRs.Network

/-! ## Cleaning up -/

/-- Deletions that work take the rules away that are behind the others. -/
theorem deleteOwned_spec {faults : NatFaults} (hdelete : ∀ rule, faults.iptables (.delete rule) = none)
    {rules before : List Rule} {owned : List (Rule × String)}
    (h : rules.Perm (owned.map Prod.fst ++ before)) (errors : List String) :
    ∃ rest, owned.foldl (deleteOwned faults) (rules, errors) = (rest, errors) ∧ rest.Perm before := by
  induction owned generalizing rules with
  | nil => exact ⟨rules, rfl, h⟩
  | cons first owned ih =>
    rw [List.map_cons, List.cons_append] at h
    have hmem : first.1 ∈ rules := h.mem_iff.mpr List.mem_cons_self
    have hstep : deleteOwned faults (rules, errors) first = (rules.erase first.1, errors) := by
      rw [deleteOwned, runIptables, hdelete]
      simp only [if_pos hmem]
    have hrest := h.erase first.1
    rw [List.erase_cons_head] at hrest
    rw [List.foldl_cons, hstep]
    exact ih hrest

/-- **Cleaning up a lease** gives back the rules from before it and, if forwarding is as it was then
or on, what the lease has seen. -/
theorem cleanup_restores {faults : NatFaults} (hdelete : ∀ rule, faults.iptables (.delete rule) = none)
    {host before : NatHost} {lease : NatLease}
    (hrules : host.rules = before.rules ++ lease.ownedRules.map Prod.fst)
    (hprevious : lease.previousIpForward = some before.ipForward)
    (hforward : before.ipForward = "1" ∧ host.ipForward = "1" ∨
      before.ipForward ≠ "1" ∧ faults.writeForward = false) :
    ∃ cleaned, cleanupNatLease faults host lease = (cleaned, .ok ()) ∧
      cleaned.rules.Perm before.rules ∧ cleaned.ipForward = before.ipForward := by
  have hperm : host.rules.Perm (lease.ownedRules.map Prod.fst ++ before.rules) := by
    rw [hrules]
    exact List.perm_append_comm
  obtain ⟨rest, hdeleted, hrest⟩ := deleteOwned_spec hdelete hperm []
  have hrestore : restoreForward faults lease host.ipForward = (before.ipForward, []) := by
    rw [restoreForward, hprevious]
    rcases hforward with ⟨hon, hhost⟩ | ⟨hoff, hwrite⟩
    · simp [hon, hhost]
    · simp [hoff, hwrite]
  refine ⟨⟨rest, before.ipForward⟩, ?_, hrest, rfl⟩
  rw [cleanupNatLease, hdeleted, hrestore]
  rfl

/-! ## All or nothing -/

/-- A step of `setup_nat` fails: forwarding cannot be turned on, or a rule is not found and cannot be
added. -/
def SetupFails (faults : NatFaults) (host : NatHost) (subnet : String) : Prop :=
  (host.ipForward ≠ "1" ∧ faults.writeForward = true) ∨
    ∃ rule ∈ natRules subnet, EnsureFails faults host.rules rule

/-- **`setup_nat` is all or nothing.**  It is an error exactly if a step fails, and then the rules and
the forwarding are as before.  When it is none, forwarding is on, every rule of the subnet is there,
those that were not there before (or were not found) are the ones that the lease owns, and cleaning up
the lease makes all of it as before. -/
theorem setupNat_all_or_nothing {faults : NatFaults} (hread : faults.readForward = false)
    (hdelete : ∀ rule, faults.iptables (.delete rule) = none) (host : NatHost) (subnet : String) :
    (SetupFails faults host subnet → ∃ host' e, setupNat faults host subnet = (host', .error e) ∧
        host'.rules.Perm host.rules ∧ host'.ipForward = host.ipForward) ∧
      (¬ SetupFails faults host subnet → ∃ host' lease,
        setupNat faults host subnet = (host', .ok lease) ∧ host'.ipForward = "1" ∧
          (∀ rule ∈ natRules subnet, rule ∈ host'.rules) ∧
          host'.rules = host.rules ++ lease.ownedRules.map Prod.fst ∧
          ∀ cleaning : NatFaults, cleaning.writeForward = false →
            (∀ rule, cleaning.iptables (.delete rule) = none) →
              ∃ cleaned, cleanupNatLease cleaning host' lease = (cleaned, .ok ()) ∧
                cleaned.rules.Perm host.rules ∧ cleaned.ipForward = host.ipForward) := by
  rw [SetupFails]
  by_cases hearly : host.ipForward ≠ "1" ∧ faults.writeForward = true
  · refine ⟨fun _ ↦ ⟨host, .context "failed to enable ipv4 forwarding", ?_, List.Perm.refl _, rfl⟩,
      fun h ↦ absurd (Or.inl hearly) h⟩
    simp [setupNat, hread, hearly]
  rw [or_iff_right hearly]
  obtain ⟨made, error, hrules, hsubnet, hprevious, herror, -⟩ :=
    setupRules_spec faults host.rules subnet (some host.ipForward)
  rw [NatLease.fresh] at hrules
  rw [← herror]
  cases error with
  | none =>
    refine ⟨fun h ↦ absurd rfl h, fun _ ↦ ?_⟩
    have hok : ∃ host', setupNat faults host subnet = (host', .ok made) := by
      rw [setupNat]
      simp only [hread, Bool.false_eq_true, if_false, ne_eq, Option.some.injEq]
      rw [if_neg hearly, hrules]
      exact ⟨_, rfl⟩
    obtain ⟨host', hok⟩ := hok
    obtain ⟨hon, -, -, howned, hall⟩ := setupNat_eq_ok hok
    refine ⟨host', made, hok, hon, hall, howned, fun cleaning hwrite hcleaning ↦ ?_⟩
    refine cleanup_restores hcleaning howned hprevious ?_
    by_cases hone : host.ipForward = "1"
    · exact Or.inl ⟨hone, hon⟩
    · exact Or.inr ⟨hone, hwrite⟩
  | some e =>
    refine ⟨fun _ ↦ ?_, fun h ↦ absurd (by simp) h⟩
    have hforward : host.ipForward = "1" ∧
          (if host.ipForward ≠ "1" then "1" else host.ipForward) = "1" ∨
        host.ipForward ≠ "1" ∧ faults.writeForward = false := by
      by_cases hon : host.ipForward = "1"
      · exact Or.inl ⟨hon, by rw [if_neg (not_not.mpr hon), hon]⟩
      · exact Or.inr ⟨hon, Bool.not_eq_true _ ▸ fun hfails ↦ hearly ⟨hon, hfails⟩⟩
    obtain ⟨cleaned, hclean, hback, hon⟩ := @cleanup_restores faults hdelete
      ⟨host.rules ++ made.ownedRules.map Prod.fst,
        if host.ipForward ≠ "1" then "1" else host.ipForward⟩ host made rfl hprevious hforward
    rw [setupNat]
    simp only [hread, Bool.false_eq_true, if_false, ne_eq, Option.some.injEq] at hclean ⊢
    rw [if_neg hearly, hrules]
    dsimp only
    rw [hclean]
    exact ⟨cleaned, e, rfl, hback, hon⟩

/-- The last of the three rules cannot be added. -/
def lastRuleFails : NatFaults where
  iptables := fun command ↦
    if command = .append (.forwardDestination "10.88.20.0/24") then
      some (.commandFailed "iptables" (" ".intercalate command.args)) else none

/-- A machine with forwarding off, whose administrator has one of the rules. -/
def adminHost : NatHost := ⟨[.postrouting "10.88.20.0/24"], "0"⟩

/-- The rule of the administrator is not found although it is there. -/
def adminRuleMissed : NatFaults where
  iptables := fun command ↦
    if command = .check (.postrouting "10.88.20.0/24") then
      some (.commandFailed "iptables" (" ".intercalate command.args)) else none

/-- The two rules before it are taken back, and the administrator's is not.  And where that one is only
missed, there are two of it until the container is gone. -/
theorem lastRuleFails_restores :
    (∃ host' e, setupNat lastRuleFails adminHost "10.88.20.0/24" = (host', .error e) ∧
      host'.rules.Perm [.postrouting "10.88.20.0/24"] ∧ host'.ipForward = "0") ∧
    ∃ host' lease, setupNat adminRuleMissed adminHost "10.88.20.0/24" = (host', .ok lease) ∧
      host'.ipForward = "1" ∧ (∀ rule ∈ natRules "10.88.20.0/24", rule ∈ host'.rules) ∧
      host'.rules = .postrouting "10.88.20.0/24" :: lease.ownedRules.map Prod.fst ∧
      ∃ cleaned, cleanupNatLease {} host' lease = (cleaned, .ok ()) ∧
        cleaned.rules.Perm [.postrouting "10.88.20.0/24"] ∧ cleaned.ipForward = "0" := by
  refine ⟨(@setupNat_all_or_nothing lastRuleFails rfl (fun rule ↦ by simp [lastRuleFails]) adminHost
    "10.88.20.0/24").1 (Or.inr ⟨.forwardDestination "10.88.20.0/24", by simp [natRules], by
      simp [EnsureFails, adminHost, lastRuleFails]⟩), ?_⟩
  obtain ⟨host', lease, hok, hon, hall, howned, hclean⟩ :=
    (@setupNat_all_or_nothing adminRuleMissed rfl (fun rule ↦ by simp [adminRuleMissed]) adminHost
      "10.88.20.0/24").2 (by simp [SetupFails, EnsureFails, natRules, adminHost, adminRuleMissed])
  exact ⟨host', lease, hok, hon, hall, howned, hclean {} rfl fun _ ↦ rfl⟩

end CrunRs.Network
