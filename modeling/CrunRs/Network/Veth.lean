import CrunRs.Lib.Text
import Mathlib.Logic.Function.Basic
import Std.Data.String.ToNat

/-!
# Link names and subnets

The naming half of `network/mod.rs`.  A container's veth pair is named after a hash of its id; the
older scheme named it after its pid, and both are still around (`VethPair.forContainerId`,
`VethPair.forPid`).  A bridge network is a veth pair and the five strings that depend on one octet,
which can be read back from any of them (`subnetOf_injective`).
-/

set_option autoImplicit false

namespace CrunRs.Network

/-! ## Modes -/

inductive NetworkMode
  | host
  | none
  | bridge
  deriving DecidableEq, Repr

/-- `NetworkMode::to_effective`: without root there is no bridge. -/
def NetworkMode.toEffective (isRoot : Bool) (mode : NetworkMode) : NetworkMode :=
  if !isRoot && mode == .bridge then .none else mode

/-! ## Veth pairs -/

structure VethPair where
  hostName : String
  peerName : String
  deriving DecidableEq, Repr

/-- The loop of `stable_veth_token`: 32-bit FNV-1a. -/
def fnv1a (bytes : List UInt8) : UInt32 :=
  bytes.foldl (fun hash byte ↦ (hash ^^^ byte.toUInt32) * 16777619) 2166136261

/-- `stable_veth_token`. -/
def stableVethToken (containerId : String) : String :=
  Text.hex8 (fnv1a containerId.toByteArray.data.toList)

/-- `VethPair::for_pid`. -/
def VethPair.forPid (pid : Int) : VethPair where
  hostName := "vethh" ++ toString pid
  peerName := "vethp" ++ toString pid

/-- `VethPair::for_container_id`. -/
def VethPair.forContainerId (containerId : String) : VethPair where
  hostName := "vethh" ++ stableVethToken containerId
  peerName := "vethp" ++ stableVethToken containerId

/-! ## Bridge networks -/

structure BridgeNetwork where
  veth : VethPair
  subnet : String
  hostCidr : String
  containerCidr : String
  gateway : String
  deriving DecidableEq, Repr

/-- The subnet of an octet. -/
def subnetOf (octet : UInt8) : String := "10.88." ++ toString octet.toNat ++ ".0/24"

/-- `BridgeNetwork::for_octet`. -/
def BridgeNetwork.forOctet (veth : VethPair) (octet : UInt8) : BridgeNetwork where
  veth := veth
  subnet := subnetOf octet
  hostCidr := "10.88." ++ toString octet.toNat ++ ".1/24"
  containerCidr := "10.88." ++ toString octet.toNat ++ ".2/24"
  gateway := "10.88." ++ toString octet.toNat ++ ".1"

/-- `BridgeNetwork::for_container_id`. -/
def BridgeNetwork.forContainerId (containerId : String) (octet : UInt8) : BridgeNetwork :=
  .forOctet (.forContainerId containerId) octet

/-- `BridgeNetwork::for_pid`: the legacy network, its octet taken from the pid. -/
def BridgeNetwork.forPid (pid : Int) : BridgeNetwork :=
  .forOctet (.forPid pid) (UInt8.ofNat (pid.natAbs % 200 + 20))

/-- The firewall rules and the forwarding setting a container's network installed. -/
structure NatLease where
  subnet : String
  postroutingOwned : Bool
  forwardSourceOwned : Bool
  forwardDestinationOwned : Bool
  previousIpForward : Option String
  deriving DecidableEq, Repr

/-- The octet can be read back from the subnet. -/
theorem subnetOf_injective : Function.Injective subnetOf := by
  intro a b h
  have hdigits : toString a.toNat = toString b.toNat := by
    rw [subnetOf, subnetOf] at h
    exact (String.append_right_inj _).mp ((String.append_left_inj _).mp h)
  exact UInt8.toNat_inj.mp (Nat.repr_inj.mp hdigits)

end CrunRs.Network
