import CrunRs.Network.Allocations
import CrunRs.State.Basic

/-!
# Links of different containers

A container's links are called after a hash of its id, of 32 bits.  No two containers have one subnet,
since the allocations are a map that is injective (`allocations_sequential`); but that they have
different links is left to the hash.  The names are short enough (`utf8ByteSize_hostName`), the two
ends of a pair are never called the same, and the links of two containers are exactly if their hashes
are (`links_distinct_iff`).

A byte is absorbed injectively, in the hash so far as well as in the byte, so that ids that differ in
one place are told apart (`fnv1a_ne_of_one_byte`).  Others need not be (`links_not_distinct`).
-/

set_option autoImplicit false

namespace CrunRs.Network

/-! ## The hash -/

/-- One round of the hash. -/
def absorb (hash : UInt32) (byte : UInt8) : UInt32 := (hash ^^^ byte.toUInt32) * 16777619

theorem fnv1a_eq_foldl (bytes : List UInt8) : fnv1a bytes = bytes.foldl absorb 2166136261 := rfl

/-- The prime is odd, and has an inverse. -/
theorem mul_prime_injective : Function.Injective fun hash : UInt32 ↦ hash * 16777619 := by
  intro a b h
  have hinverse : (16777619 : UInt32) * 899433627 = 1 := by decide
  have hmul := congrArg (· * (899433627 : UInt32)) h
  simp only [UInt32.mul_assoc, hinverse, UInt32.mul_one] at hmul
  exact hmul

theorem absorb_left_injective (byte : UInt8) : Function.Injective fun hash ↦ absorb hash byte := by
  intro a b h
  exact (UInt32.xor_left_inj byte.toUInt32).mp (mul_prime_injective h)

theorem absorb_right_injective (hash : UInt32) : Function.Injective (absorb hash) := by
  intro a b h
  have hbyte : a.toUInt32 = b.toUInt32 :=
    (UInt32.xor_right_inj hash).mp (mul_prime_injective h)
  exact UInt8.toUInt32_inj.mp hbyte

theorem foldl_absorb_injective (bytes : List UInt8) :
    Function.Injective fun hash ↦ bytes.foldl absorb hash := by
  induction bytes with
  | nil => exact Function.injective_id
  | cons byte bytes ih => exact ih.comp (absorb_left_injective byte)

/-- Ids that differ in one byte have different hashes. -/
theorem fnv1a_ne_of_one_byte (before after : List UInt8) {a b : UInt8} (h : a ≠ b) :
    fnv1a (before ++ a :: after) ≠ fnv1a (before ++ b :: after) := by
  rw [fnv1a_eq_foldl, fnv1a_eq_foldl, List.foldl_append, List.foldl_append, List.foldl_cons,
    List.foldl_cons]
  exact fun heq ↦ h (absorb_right_injective _ (foldl_absorb_injective after heq))

/-! ## The names -/

/-- The hash of an id. -/
def idHash (containerId : String) : UInt32 := fnv1a containerId.toByteArray.data.toList

theorem stableVethToken_eq_iff {id other : String} :
    stableVethToken id = stableVethToken other ↔ idHash id = idHash other :=
  ⟨fun h ↦ Text.hex8_injective h, fun h ↦ congrArg Text.hex8 h⟩

theorem hostName_eq_iff {id other : String} :
    (VethPair.forContainerId id).hostName = (VethPair.forContainerId other).hostName ↔
      idHash id = idHash other := by
  rw [VethPair.forContainerId, VethPair.forContainerId, String.append_right_inj,
    stableVethToken_eq_iff]

theorem peerName_eq_iff {id other : String} :
    (VethPair.forContainerId id).peerName = (VethPair.forContainerId other).peerName ↔
      idHash id = idHash other := by
  rw [VethPair.forContainerId, VethPair.forContainerId, String.append_right_inj,
    stableVethToken_eq_iff]

/-- The two kinds of names differ in their fifth character. -/
theorem hostName_ne_peerName (id other : String) :
    (VethPair.forContainerId id).hostName ≠ (VethPair.forContainerId other).peerName := by
  intro h
  have hchars := congrArg String.toList h
  simp [VethPair.forContainerId] at hchars

theorem utf8ByteSize_hostName (id : String) :
    (VethPair.forContainerId id).hostName.utf8ByteSize = 13 := by
  rw [VethPair.forContainerId, String.utf8ByteSize_append, stableVethToken, Text.utf8ByteSize_hex8]
  rfl

theorem utf8ByteSize_peerName (id : String) :
    (VethPair.forContainerId id).peerName.utf8ByteSize = 13 := by
  rw [VethPair.forContainerId, String.utf8ByteSize_append, stableVethToken, Text.utf8ByteSize_hex8]
  rfl

/-! ## The links of containers that are there at the same time -/

namespace World

/-- The links of all containers that hold a network have different names, of at most fifteen bytes. -/
structure LinksDistinct (w : World) : Prop where
  short : ∀ id network, w.held id = some network →
    network.veth.hostName.utf8ByteSize ≤ 15 ∧ network.veth.peerName.utf8ByteSize ≤ 15
  host_ne_peer : ∀ id other network network', w.held id = some network →
    w.held other = some network' → network.veth.hostName ≠ network'.veth.peerName
  host_ne_host : ∀ id other network network', id ≠ other → w.held id = some network →
    w.held other = some network' → network.veth.hostName ≠ network'.veth.hostName
  peer_ne_peer : ∀ id other network network', id ≠ other → w.held id = some network →
    w.held other = some network' → network.veth.peerName ≠ network'.veth.peerName

/-- The hashes of the ids of all containers that hold a network differ. -/
def HashesDiffer (w : World) : Prop :=
  ∀ id other, id ≠ other → w.held id ≠ none → w.held other ≠ none → idHash id ≠ idHash other

theorem Inv.veth {w : World} (h : w.Inv) {id : String} {network : BridgeNetwork}
    (hid : w.held id = some network) : network.veth = .forContainerId id := by
  obtain ⟨-, allocations, -, -, -, hheld⟩ := h
  rw [hheld, Option.map_eq_some_iff] at hid
  obtain ⟨octet, -, rfl⟩ := hid
  rfl

/-- **Links identify containers**, in whatever way the allocations have come about, exactly if the
hashes of their ids do. -/
theorem links_distinct_iff (start : FreshRoot) (ops : List Op) :
    (start.world.run ops).LinksDistinct ↔ (start.world.run ops).HashesDiffer := by
  have hveth := fun {id network} ↦ @Inv.veth _ (start.inv.run ops) id network
  constructor
  · intro h id other hne hid hother
    obtain ⟨network, hid⟩ := Option.ne_none_iff_exists'.mp hid
    obtain ⟨network', hother⟩ := Option.ne_none_iff_exists'.mp hother
    have hnames := h.host_ne_host id other network network' hne hid hother
    rw [hveth hid, hveth hother] at hnames
    exact mt hostName_eq_iff.mpr hnames
  · intro h
    have hhash : ∀ id other network network', id ≠ other →
        (start.world.run ops).held id = some network →
          (start.world.run ops).held other = some network' → idHash id ≠ idHash other :=
      fun id other network network' hne hid hother ↦
        h id other hne (by simp [hid]) (by simp [hother])
    refine ⟨?_, ?_, ?_, ?_⟩
    · intro id network hid
      rw [hveth hid, utf8ByteSize_hostName, utf8ByteSize_peerName]
      decide
    · intro id other network network' hid hother
      rw [hveth hid, hveth hother]
      exact hostName_ne_peerName id other
    · intro id other network network' hne hid hother
      rw [hveth hid, hveth hother]
      exact mt hostName_eq_iff.mp (hhash id other network network' hne hid hother)
    · intro id other network network' hne hid hother
      rw [hveth hid, hveth hother]
      exact mt peerName_eq_iff.mp (hhash id other network network' hne hid hother)

/-- Only who has asked for a network holds one. -/
theorem allocated_of_held {w : World} {ops : List Op} {id : String}
    (h : (w.run ops).held id ≠ none) :
    w.held id ≠ none ∨ ∃ caller pid, .allocate caller id pid ∈ ops := by
  induction ops generalizing w with
  | nil => exact Or.inl h
  | cons op ops ih =>
    rcases ih h with hheld | ⟨caller, pid, hop⟩
    · cases op with
      | allocate caller id' pid =>
        by_cases heq : id = id'
        · exact Or.inr ⟨caller, pid, by simp [heq]⟩
        · left
          rw [World.apply] at hheld
          cases hresult : (allocateBridgeNetworkFrom caller w.root id' pid).2 with
          | error e => simpa only [hresult] using hheld
          | ok network => simpa only [hresult, Function.update_of_ne heq] using hheld
      | release caller id' =>
        left
        rw [World.apply] at hheld
        cases hresult : (releaseBridgeNetworkFrom caller w.root id').2 with
        | error e => simpa only [hresult] using hheld
        | ok =>
          simp only [hresult] at hheld
          by_cases heq : id = id'
          · rw [heq, Function.update_self] at hheld
            exact absurd rfl hheld
          · rwa [Function.update_of_ne heq] at hheld
    · exact Or.inr ⟨caller, pid, List.mem_cons_of_mem op hop⟩

/-- Two containers ask for a network, one after the other. -/
def collidingOps : List Op :=
  let caller : Caller := { pid := 1, now := 0, starttime := fun _ ↦ some 1 }
  [.allocate caller "costarring" 1, .allocate caller "liquid" 2]

/-- Both get one, and their links are called the same. -/
theorem links_not_distinct : ¬ ∀ (start : FreshRoot) (ops : List Op),
    (∀ id, (start.world.run ops).held id ≠ none → State.validateId id = .ok ()) →
      (start.world.run ops).LinksDistinct := by
  intro h
  have hvalid : ∀ id, ((default : FreshRoot).world.run collidingOps).held id ≠ none →
      State.validateId id = .ok () := by
    intro id hid
    rcases allocated_of_held hid with hstart | ⟨caller, pid, hop⟩
    · exact absurd rfl hstart
    · simp only [collidingOps, List.mem_cons, List.not_mem_nil, or_false, Op.allocate.injEq] at hop
      rcases hop with ⟨-, rfl, -⟩ | ⟨-, rfl, -⟩ <;> decide +kernel
  have hlinks := h default collidingOps hvalid
  obtain ⟨first, hfirst⟩ : ∃ network,
      ((default : FreshRoot).world.run collidingOps).held "costarring" = some network :=
    Option.isSome_iff_exists.mp (by decide +kernel)
  obtain ⟨second, hsecond⟩ : ∃ network,
      ((default : FreshRoot).world.run collidingOps).held "liquid" = some network :=
    Option.isSome_iff_exists.mp (by decide +kernel)
  have hinv := (default : FreshRoot).inv.run collidingOps
  refine hlinks.host_ne_host _ _ first second (by decide) hfirst hsecond ?_
  rw [hinv.veth hfirst, hinv.veth hsecond, hostName_eq_iff]
  decide +kernel

end World

end CrunRs.Network
