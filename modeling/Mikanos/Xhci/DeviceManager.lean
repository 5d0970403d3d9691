import Mikanos.Usb.Device

/-!
# The device manager

`DeviceManager` owns the device objects, by slot, and the array of pointers to
their device contexts, which the controller reads: `device_context_pointers_`
is the DCBAA.  Entry 0 of that array belongs to no slot, the controller expects
the scratchpad buffer array there.

Both arrays have `max_slots_ + 1` elements.  Every function that takes a slot id
tests it against `max_slots_`, none tests it against 0.
-/

namespace Mikanos.Xhci

open Mikanos.Usb

/-- `class DeviceManager`.  `devices i` is the object behind `devices_[i]`. -/
structure DeviceManager where
  maxSlots : Nat
  devices : Nat → Option Device
  deviceContextPointers : Nat → Addr
  /-- The address of `device_context_pointers_`. -/
  contextArray : Addr

namespace DeviceManager

/-- The part of `Initialize` after the allocation of the context array. -/
def useContextArray (maxSlots : Nat) (block : Addr × Pool) : Error × DeviceManager × Pool :=
  let d : DeviceManager := ⟨maxSlots, fun _ => none, fun _ => nullptr, block.1⟩
  if block.1 = nullptr then (.kNoEnoughMemory, d, block.2) else (.kSuccess, d, block.2)

/-- The part of `Initialize` after the allocation of the device array.  Until
both arrays exist nothing reads them. -/
def useDeviceArray (maxSlots : Nat) (block : Addr × Pool) : Error × DeviceManager × Pool :=
  if block.1 = nullptr then
    (.kNoEnoughMemory, ⟨maxSlots, fun _ => none, fun _ => nullptr, nullptr⟩, block.2)
  else
    useContextArray maxSlots (block.2.allocArray 8 (BitVec.ofNat 64 (maxSlots + 1)) 64 4096)

/-- `DeviceManager::Initialize(max_slots)`. -/
def initializeManager (maxSlots : Nat) (pool : Pool) : Error × DeviceManager × Pool :=
  useDeviceArray maxSlots (pool.allocArray 8 (BitVec.ofNat 64 (maxSlots + 1)) 0 0)

/-- `DeviceManager::FindBySlot(slot_id)`. -/
def findBySlot (d : DeviceManager) (slotId : BitVec 8) : Option Device :=
  if d.maxSlots < slotId.toNat then none else d.devices slotId.toNat

/-- The device in a slot changes. -/
def setDevice (d : DeviceManager) (slotId : BitVec 8) (dev : Device) : DeviceManager :=
  { d with devices := Function.update d.devices slotId.toNat (some dev) }

/-- The device `AllocDevice` constructs in its block.  The constructor runs even
on a null pointer. -/
def placeDevice (d : DeviceManager) (slotId : BitVec 8) (block : Addr × Pool) :
    Except Fault (Error × DeviceManager × Pool) :=
  if block.1 = nullptr then .error .nullDereference
  else .ok (.kSuccess, d.setDevice slotId (Device.new block.1 slotId), block.2)

/-- `DeviceManager::AllocDevice(slot_id, dbreg)`. -/
def allocDevice (d : DeviceManager) (slotId : BitVec 8) (pool : Pool) :
    Except Fault (Error × DeviceManager × Pool) :=
  if d.maxSlots < slotId.toNat then .ok (.kInvalidSlotID, d, pool)
  else if (d.devices slotId.toNat).isSome then .ok (.kAlreadyAllocated, d, pool)
  else d.placeDevice slotId (pool.allocArray Device.sizeOf 1 64 4096)

/-- `DeviceManager::LoadDCBAA(slot_id)`. -/
def loadDCBAA (d : DeviceManager) (slotId : BitVec 8) : Except Fault (Error × DeviceManager) :=
  if d.maxSlots < slotId.toNat then .ok (.kInvalidSlotID, d)
  else
    match d.devices slotId.toNat with
    | none => .error .nullDereference
    | some dev => .ok (.kSuccess, { d with
        deviceContextPointers :=
          Function.update d.deviceContextPointers slotId.toNat dev.ctxAddr })

end DeviceManager

end Mikanos.Xhci
