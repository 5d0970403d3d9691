import Mikanos.Lib.Dialogue
import Mikanos.Xhci.BiosHandOff
import Mikanos.Xhci.Initialize

/-!
# Starting the controller, register by register

`Initialize` and `Run` as a dialogue with the registers of the controller.  Every read is a
question, and every loop that waits for a register asks until the answer is the one it waits for.

`startUp` is the order in which a driver has to do this: nothing is written before the firmware
has handed over (but for the case that `StartUp.FoundBoth` describes), the controller is reset
when it has halted and let alone until it is ready, its registers are set while it stands still,
and it runs when it has been told where everything is.
`Initialize` keeps to it (`initializeXhc_keepsOrder`), and what it does with the driver's own
structures is `initializeController` (`initializeXhc_refines`).
-/

namespace Mikanos.Xhci

open BitField Dialogue Mikanos.Usb

/-- A register of 32 bits.  An interrupter register set and an extended capability have an
address that was read from other registers. -/
inductive Reg32 where
  | hcsparams1
  | hcsparams2
  | hccparams1
  | rtsoff
  | usbcmd
  | usbsts
  | config
  | iman (set : Addr)
  | erstsz (set : Addr)
  | extended (reg : Addr)
  deriving DecidableEq, Repr

/-- A register of 64 bits. -/
inductive Reg64 where
  | crcr
  | dcbaap
  | erstba (set : Addr)
  | erdp (set : Addr)
  deriving DecidableEq, Repr

/-- `MemMapRegister::Read()` or `MemMapRegister::Write(value)`. -/
inductive Access where
  | read32 (r : Reg32)
  | write32 (r : Reg32) (value : BitVec 32)
  | read64 (r : Reg64)
  | write64 (r : Reg64) (value : BitVec 64)
  deriving DecidableEq, Repr

/-- What an access answers. -/
def Access.Reply : Access → Type
  | .read32 _ => BitVec 32
  | .write32 _ _ => Unit
  | .read64 _ => BitVec 64
  | .write64 _ _ => Unit

/-- A part of the driver. -/
abbrev Driver (R : Type) := Dialogue Access.Reply R

namespace Driver

def read32 (r : Reg32) : Driver (BitVec 32) := .ask (A := Access.Reply) (.read32 r) .done

def write32 (r : Reg32) (value : BitVec 32) : Driver Unit :=
  .ask (A := Access.Reply) (.write32 r value) .done

def read64 (r : Reg64) : Driver (BitVec 64) := .ask (A := Access.Reply) (.read64 r) .done

def write64 (r : Reg64) (value : BitVec 64) : Driver Unit :=
  .ask (A := Access.Reply) (.write64 r value) .done

/-- A loop that reads a register until its value passes the test. -/
def await32 (r : Reg32) (stop : BitVec 32 → Bool) : Driver (BitVec 32) :=
  .poll (A := Access.Reply) (.read32 r) stop .done

end Driver

open Driver

/-- `USBCMD.bits.run_stop`. -/
def runStop (usbcmd : BitVec 32) : Bool := usbcmd.getLsbD 0

/-- `USBCMD.bits.host_controller_reset`. -/
def hostControllerReset (usbcmd : BitVec 32) : Bool := usbcmd.getLsbD 1

/-- `USBSTS.bits.host_controller_halted`. -/
def hostControllerHalted (usbsts : BitVec 32) : Bool := usbsts.getLsbD 0

/-- `USBSTS.bits.controller_not_ready`. -/
def controllerNotReady (usbsts : BitVec 32) : Bool := usbsts.getLsbD 11

/-- The address of `InterrupterRegisterSets()[0]`. -/
def interrupterRegisterSet (mmioBase : Addr) (rtsoff : BitVec 32) : Addr :=
  mmioBase + (((field rtsoff 5 27).setWidth 32 <<< 5 : BitVec 32).setWidth 64) + 0x20

/-- `std::find_if` of `RequestHCOwnership`, from the iterator `reg` on. -/
def findLegacy : Nat → Addr → Driver (Except Fault Addr)
  | 0, _ => .done (.error .endlessLoop)
  | fuel + 1, reg =>
      if reg = nullptr then .done (.ok nullptr)
      else do
        let r ← read32 (.extended reg)
        if capabilityId r = 1 then .done (.ok reg)
        else do
          -- `++it` reads the register again
          let r ← read32 (.extended reg)
          findLegacy fuel (addOrNull reg (nextPointer r).toNat)

/-- The test of the loop at the end of `RequestHCOwnership`. -/
def osOwns (r : BitVec 32) : Bool := !(hcBiosOwnedSemaphore r || !hcOsOwnedSemaphore r)

/-- `RequestHCOwnership` with an iterator that is not at the end. -/
def takeOwnership (reg : Addr) : Driver Unit := do
  let r ← read32 (.extended reg)
  if hcOsOwnedSemaphore r then return ()
  else do
    write32 (.extended reg) (setField r 24 (1 : BitVec 1))
    let _ ← await32 (.extended reg) osOwns
    return ()

/-- `RequestHCOwnership(mmio_base, hccp)`. -/
def requestHCOwnership (fuel : Nat) (mmioBase : Addr) (hccparams1 : BitVec 32) :
    Driver (Except Fault Unit) :=
  (findLegacy fuel (addOrNull mmioBase (field hccparams1 16 16).toNat)).bindOk fun reg =>
    if reg = nullptr then .done (.ok ())
    else do
      takeOwnership reg
      return .ok ()

/-- The part of `Initialize` that halts the controller and resets it. -/
def haltAndReset : Driver Unit := do
  let usbcmd ← read32 .usbcmd
  let usbsts ← read32 .usbsts
  write32 .usbcmd (disableInterrupts usbcmd (hostControllerHalted usbsts))
  let _ ← await32 .usbsts hostControllerHalted
  let usbcmd ← read32 .usbcmd
  write32 .usbcmd (setField usbcmd 1 (1 : BitVec 1))
  let _ ← await32 .usbcmd fun usbcmd => !hostControllerReset usbcmd
  let _ ← await32 .usbsts fun usbsts => !controllerNotReady usbsts
  return ()

/-- The part of `Initialize` up to DCBAAP. -/
def setUpContexts (c : Controller) : Driver (Except Fault Controller) := do
  let _ ← read32 .hcsparams1
  let config ← read32 .config
  write32 .config (setField config 0 (BitVec.ofNat 8 kDeviceSize))
  let hcsparams2 ← read32 .hcsparams2
  match c.initializeScratchpad (maxScratchpadBuffers hcsparams2) with
  | .error e => return .error e
  | .ok c => do
      write64 .dcbaap (dcbaapOf c.devmgr.contextArray)
      return .ok c

/-- The part of `EventRing::Initialize` with the registers, after the allocations. -/
def setEventRing (set : Addr) : Error × EventRing × Pool → Driver (Error × EventRing × Pool)
  | (err, r, pool) =>
      if err ≠ .kSuccess then return (err, r, pool)
      else do
        let erstsz ← read32 (.erstsz set)
        let erstsz := setField erstsz 0 (1 : BitVec 16)
        write32 (.erstsz set) erstsz
        let erdp ← read64 (.erdp set)
        let erdp := erdpSetPointer erdp r.buf
        write64 (.erdp set) erdp
        let erstba ← read64 (.erstba set)
        let erstba := setField erstba 6 ((r.erst >>> 6).setWidth 58)
        write64 (.erstba set) erstba
        return (.kSuccess, { r with interrupter := ⟨erstsz, erstba, erdp⟩ }, pool)

/-- `EventRing::Initialize(buf_size, interrupter)`. -/
@[irreducible] def initializeEventRing (set : Addr) (r : EventRing) (bufSize : Nat) (pool : Pool) :
    Driver (Error × EventRing × Pool) :=
  setEventRing set (r.initializeEventRing bufSize pool)

/-- The end of `Initialize`: interrupts. -/
def enableInterrupts (set : Addr) : Driver Unit := do
  let iman ← read32 (.iman set)
  write32 (.iman set) (setField (setField iman 0 (1 : BitVec 1)) 1 (1 : BitVec 1))
  let usbcmd ← read32 .usbcmd
  write32 .usbcmd (setField usbcmd 2 (1 : BitVec 1))

/-- The part of `Initialize` after the event ring. -/
def finish (set : Addr) (c : Controller) : Error × EventRing × Pool → Driver (Error × Controller)
  | (err, er, pool) =>
      if err ≠ .kSuccess then return (err, { c with er := er, pool := pool })
      else do
        enableInterrupts set
        return (.kSuccess, { c with er := er, pool := pool })

/-- The part of `Initialize` after the command ring was allocated. -/
def setCommandRing (set : Addr) (c : Controller) :
    Error × Ring × Pool → Driver (Error × Controller)
  | (err, cr, pool) =>
      if err ≠ .kSuccess then return (err, { c with cr := cr, pool := pool })
      else do
        let crcr ← read64 .crcr
        write64 .crcr (registerCommandRing crcr cr.buf)
        let result ← initializeEventRing set c.er 32 pool
        finish set { c with cr := cr } result

/-- The part of `Initialize` with the rings. -/
@[irreducible] def setUpRings (set : Addr) (c : Controller) : Driver (Error × Controller) :=
  setCommandRing set c (c.cr.initializeRing 32 c.pool)

/-- The part of `Initialize` after the device manager. -/
def setUpController (fuel : Nat) (mmioBase : Addr) (c : Controller) :
    Error × DeviceManager × Pool → Driver (Except Fault (Error × Controller))
  | (err, devmgr, pool) =>
      if err ≠ .kSuccess then return .ok (err, { c with devmgr := devmgr, pool := pool })
      else do
        let hccparams1 ← read32 .hccparams1
        (requestHCOwnership fuel mmioBase hccparams1).bindOk fun _ => do
          haltAndReset
          (setUpContexts { c with devmgr := devmgr, pool := pool }).bindOk fun c => do
            let rtsoff ← read32 .rtsoff
            let result ← setUpRings (interrupterRegisterSet mmioBase rtsoff) c
            return .ok result

/-- `Controller::Initialize()`. -/
def initializeXhc (fuel : Nat) (mmioBase : Addr) (c : Controller) :
    Driver (Except Fault (Error × Controller)) :=
  setUpController fuel mmioBase c (DeviceManager.initializeManager kDeviceSize c.pool)

/-- A register was read. -/
def wasRead32 (r : Reg32) (value : BitVec 32) : Exchange Access.Reply := ⟨.read32 r, value⟩

def wasRead64 (r : Reg64) (value : BitVec 64) : Exchange Access.Reply := ⟨.read64 r, value⟩

/-- A register was written. -/
def wasWritten32 (r : Reg32) (value : BitVec 32) : Exchange Access.Reply := ⟨.write32 r value, ()⟩

def wasWritten64 (r : Reg64) (value : BitVec 64) : Exchange Access.Reply := ⟨.write64 r value, ()⟩

namespace Driver

variable {S R : Type} {p : Protocol Access.Reply S} {post : R → S → Prop} {s : S}

/-- The rule for a read of a register: it is allowed now, and the rest keeps to the order
whatever value is read. -/
theorem keeps_read32 {r : Reg32} {f : BitVec 32 → Driver R} (hallowed : p.allowed s (.read32 r))
    (h : ∀ v : BitVec 32, p.expected s (wasRead32 r v) →
      p.Keeps post (f v) (p.next s (wasRead32 r v))) : p.Keeps post (read32 r >>= f) s :=
  ⟨hallowed, h⟩

/-- The rule for a write: it is allowed now, and the rest keeps to the order from the state that
has the value. -/
theorem keeps_write32 {r : Reg32} {value : BitVec 32} {f : Unit → Driver R}
    (hallowed : p.allowed s (.write32 r value))
    (h : p.Keeps post (f ()) (p.next s (wasWritten32 r value))) :
    p.Keeps post (write32 r value >>= f) s :=
  ⟨hallowed, fun _ _ => h⟩

/-- A read of a 64-bit register keeps the order if it is allowed there and the rest keeps it for
every value that can be read. -/
theorem keeps_read64 {r : Reg64} {f : BitVec 64 → Driver R} (hallowed : p.allowed s (.read64 r))
    (h : ∀ v : BitVec 64, p.expected s (wasRead64 r v) →
      p.Keeps post (f v) (p.next s (wasRead64 r v))) : p.Keeps post (read64 r >>= f) s :=
  ⟨hallowed, h⟩

/-- A write of a 64-bit register keeps the order if it is allowed there and the rest keeps it
from the state after the write. -/
theorem keeps_write64 {r : Reg64} {value : BitVec 64} {f : Unit → Driver R}
    (hallowed : p.allowed s (.write64 r value))
    (h : p.Keeps post (f ()) (p.next s (wasWritten64 r value))) :
    p.Keeps post (write64 r value >>= f) s :=
  ⟨hallowed, fun _ _ => h⟩

/-- Waiting, with an invariant of the rounds. -/
theorem keeps_await32 {r : Reg32} {stop : BitVec 32 → Bool} {f : BitVec 32 → Driver R}
    (inv : S → Prop) (hinv : inv s) (h : ∀ s, inv s → p.allowed s (.read32 r) ∧
      ∀ v : BitVec 32, p.expected s (wasRead32 r v) →
        (stop v = false → inv (p.next s (wasRead32 r v))) ∧
        (stop v = true → p.Keeps post (f v) (p.next s (wasRead32 r v)))) :
    p.Keeps post (await32 r stop >>= f) s :=
  ⟨inv, hinv, h⟩

/-- One part after the other. -/
theorem keeps_seq {R' : Type} {d : Driver R'} {f : R' → Driver R}
    (h : p.Keeps (fun r s => p.Keeps post (f r) s) d s) : p.Keeps post (d >>= f) s :=
  Protocol.keeps_bind h

/-- One part after the other, unless the first ends in a fault. -/
theorem keeps_seqOk {R' : Type} {d : Driver (Except Fault R')}
    {f : R' → Driver (Except Fault R)} {post : Except Fault R → S → Prop}
    (herror : ∀ e s, post (.error e) s)
    (h : p.Keeps (fun r s => ∀ a, r = .ok a → p.Keeps post (f a) s) d s) :
    p.Keeps post (d.bindOk f) s := by
  refine Protocol.keeps_bind (h.mono fun r s hr => ?_)
  cases r with
  | error e => exact herror e s
  | ok a => exact hr a rfl

end Driver

/-! ## A small controller -/

/-- A controller that does at once what it is told; its state is USBCMD. -/
def smallController : Machine Access.Reply (BitVec 32) := fun usbcmd a =>
  match a with
  | .read32 .usbcmd => (usbcmd, usbcmd)
  | .read32 .usbsts => ((if runStop usbcmd then 0 else 1 : BitVec 32), usbcmd)
  | .read32 _ => ((0 : BitVec 32), usbcmd)
  | .read64 _ => ((0 : BitVec 64), usbcmd)
  | .write32 .usbcmd v => ((), if hostControllerReset v then 0 else v)
  | .write32 _ _ => ((), usbcmd)
  | .write64 _ _ => ((), usbcmd)

/-- The driver of the small system starts: its machine answers until `Initialize` has returned
success. -/
theorem smallController_ends : ∃ c' usbcmd,
    smallController.run 1 (initializeXhc 1 0 Controller.sampleNew) 0 =
      some (.ok (.kSuccess, c'), usbcmd) := by
  have hstart : (smallController.run 1 (initializeXhc 1 0 Controller.sampleNew) 0).any
      (fun result => returns result.1 fun started => started.1 == .kSuccess) = true := by
    decide +kernel
  obtain ⟨⟨outcome, usbcmd⟩, hrun, hreturns⟩ := Option.any_eq_true _ _ |>.mp hstart
  obtain ⟨⟨err, c'⟩, rfl, herr⟩ := exists_of_returns hreturns
  have herr : err = .kSuccess := by simpa using herr
  exact ⟨c', usbcmd, by rw [hrun, herr]⟩

/-! ## What the driver computes -/

/-- The writes of `RegisterWrite` among the accesses. -/
def recorded : Access → List RegisterWrite
  | .write32 .usbcmd value => [.usbcmd value]
  | .write32 .config value => [.config value]
  | .write32 (.iman _) value => [.iman value]
  | .write64 .dcbaap value => [.dcbaap value]
  | .write64 .crcr value => [.crcr value]
  | _ => []

/-- The protocol that allows everything and keeps the writes. -/
def writeLog : Protocol Access.Reply (List RegisterWrite) where
  next := fun writes e => writes ++ recorded e.question
  allowed := fun _ _ => True
  expected := fun _ _ => True

/-- The interrupter registers as the event ring finds them. -/
def Controller.withInterrupter (c : Controller) (regs : InterrupterRegisterSet) : Controller :=
  { c with er := { c.er with interrupter := regs } }

/-- The segment table of the event ring does not depend on the registers of the interrupter,
which are set in the end. -/
theorem useTable_registers {r er : EventRing} {block : Addr × Pool} {pool : Pool}
    (h : r.useTable block = (.kSuccess, er, pool)) (regs : InterrupterRegisterSet) :
    ({ r with interrupter := regs } : EventRing).useTable block =
      (.kSuccess, { er with interrupter := ⟨setField regs.erstsz 0 (1 : BitVec 16),
        setField regs.erstba 6 ((er.erst >>> 6).setWidth 58), erdpSetPointer regs.erdp er.buf⟩ },
        pool) := by
  unfold EventRing.useTable at h ⊢
  by_cases herst : block.1 = nullptr
  · rw [if_pos herst] at h
    cases h
  · rw [if_neg herst] at h ⊢
    cases h
    rfl

/-- What `EventRing::Initialize` does with the memory of the segment does not depend on the
registers of the interrupter. -/
theorem useBlock_registers {r er : EventRing} {bufSize : Nat} {block : Addr × Pool} {pool : Pool}
    (h : r.useBlock bufSize block = (.kSuccess, er, pool)) (regs : InterrupterRegisterSet) :
    ({ r with interrupter := regs } : EventRing).useBlock bufSize block =
      (.kSuccess, { er with interrupter := ⟨setField regs.erstsz 0 (1 : BitVec 16),
        setField regs.erstba 6 ((er.erst >>> 6).setWidth 58), erdpSetPointer regs.erdp er.buf⟩ },
        pool) := by
  unfold EventRing.useBlock at h ⊢
  by_cases hbuf : block.1 = nullptr
  · rw [if_pos hbuf] at h
    cases h
  · rw [if_neg hbuf] at h ⊢
    exact useTable_registers h regs

/-- The registers of the interrupter that an event ring is given do not decide whether its
initialization succeeds, nor where its segment lies. -/
theorem initializeEventRing_registers {r er : EventRing} {bufSize : Nat} {pool pool' : Pool}
    (h : r.initializeEventRing bufSize pool = (.kSuccess, er, pool'))
    (regs : InterrupterRegisterSet) :
    ({ r with interrupter := regs } : EventRing).initializeEventRing bufSize pool =
      (.kSuccess, { er with interrupter := ⟨setField regs.erstsz 0 (1 : BitVec 16),
        setField regs.erstba 6 ((er.erst >>> 6).setWidth 58), erdpSetPointer regs.erdp er.buf⟩ },
        pool') := by
  exact useBlock_registers h regs

section Log

variable {writes : List RegisterWrite}

/-- A read leaves no trace among the writes. -/
@[simp] theorem writeLog_read32 (r : Reg32) (v : BitVec 32) :
    writeLog.next writes (wasRead32 r v) = writes := List.append_nil writes

/-- A read of a 64-bit register adds nothing to the log of the writes. -/
@[simp] theorem writeLog_read64 (r : Reg64) (v : BitVec 64) :
    writeLog.next writes (wasRead64 r v) = writes := List.append_nil writes

/-- A write is recorded, if it is one to the registers that `initializeController` speaks of. -/
@[simp] theorem writeLog_write32 (r : Reg32) (v : BitVec 32) :
    writeLog.next writes (wasWritten32 r v) = writes ++ recorded (.write32 r v) := rfl

/-- A write of a 64-bit register is recorded at the end of the log of the writes. -/
@[simp] theorem writeLog_write64 (r : Reg64) (v : BitVec 64) :
    writeLog.next writes (wasWritten64 r v) = writes ++ recorded (.write64 r v) := rfl

/-- Waiting writes nothing. -/
theorem logs_await32 {R : Type} {r : Reg32} {stop : BitVec 32 → Bool} {f : BitVec 32 → Driver R}
    {post : R → List RegisterWrite → Prop} (h : ∀ v, writeLog.Keeps post (f v) writes) :
    writeLog.Keeps post (await32 r stop >>= f) writes := by
  refine keeps_await32 (· = writes) rfl fun s hs => ⟨trivial, fun v _ => ?_⟩
  subst hs
  rw [writeLog_read32]
  exact ⟨fun _ => rfl, fun _ => h v⟩

/-- The hand-over writes to no register but the one of the capability, which the log does not
record. -/
theorem logs_requestHCOwnership (fuel : Nat) (mmioBase : Addr) (hccparams1 : BitVec 32) :
    writeLog.Keeps (fun _ writes' => writes' = writes)
      (requestHCOwnership fuel mmioBase hccparams1) writes := by
  have hfind : ∀ reg, writeLog.Keeps (fun _ writes' => writes' = writes) (findLegacy fuel reg)
      writes := by
    induction fuel with
    | zero => exact fun _ => rfl
    | succ fuel ih =>
        intro reg
        unfold findLegacy
        split
        · exact rfl
        · refine keeps_read32 trivial fun v _ => ?_
          rw [writeLog_read32]
          split
          · exact rfl
          · refine keeps_read32 trivial fun v _ => ?_
            rw [writeLog_read32]
            exact ih _
  refine Protocol.keeps_bind ((hfind _).mono fun found writes₁ h₁ => ?_)
  subst h₁
  cases found with
  | error e => exact rfl
  | ok reg =>
      change writeLog.Keeps _ (if reg = nullptr then _ else _) _
      split
      · exact rfl
      · refine keeps_seq (keeps_read32 trivial fun v _ => ?_)
        rw [writeLog_read32]
        split
        · exact rfl
        · refine keeps_write32 trivial ?_
          rw [writeLog_write32]
          exact logs_await32 fun _ => List.append_nil _

/-- **The first two writes**: interrupts off and the controller halted, then the reset bit.  The
loops that wait in between write nothing. -/
theorem logs_haltAndReset : writeLog.Keeps (fun _ writes' => ∃ u₀ u₁ halted, writes' = writes ++
    [.usbcmd (disableInterrupts u₀ halted), .usbcmd (setField u₁ 1 (1 : BitVec 1))])
      haltAndReset writes := by
  refine keeps_read32 trivial fun u₀ _ => ?_
  refine keeps_read32 trivial fun usbsts _ => ?_
  refine keeps_write32 trivial (logs_await32 fun _ => ?_)
  refine keeps_read32 trivial fun u₁ _ => ?_
  refine keeps_write32 trivial (logs_await32 fun _ => logs_await32 fun _ => ?_)
  simp only [writeLog_read32, writeLog_write32, recorded, List.append_assoc]
  exact ⟨u₀, u₁, hostControllerHalted usbsts, rfl⟩

/-- **The writes on the way to the contexts**: the number of slots and the address of the
context array, both as the plain model has them, around the allocation of the scratchpad
buffers, which writes to no register. -/
theorem logs_setUpContexts (c : Controller) :
    writeLog.Keeps (fun result writes' => ∀ c', result = .ok c' → ∃ config hcsparams2,
      c.initializeScratchpad (maxScratchpadBuffers hcsparams2) = .ok c' ∧ writes' = writes ++
        [.config (setField config 0 (BitVec.ofNat 8 kDeviceSize)),
          .dcbaap (dcbaapOf c'.devmgr.contextArray)]) (setUpContexts c) writes := by
  refine keeps_read32 trivial fun _ _ => ?_
  refine keeps_read32 trivial fun config _ => ?_
  refine keeps_write32 trivial (keeps_read32 trivial fun hcsparams2 _ => ?_)
  simp only [writeLog_read32, writeLog_write32, recorded]
  cases hscratchpad : c.initializeScratchpad (maxScratchpadBuffers hcsparams2) with
  | error e => exact fun c' h => nomatch h
  | ok c₁ =>
      refine keeps_write64 trivial fun c' hc' => ?_
      cases hc'
      refine ⟨config, hcsparams2, hscratchpad, ?_⟩
      simp only [writeLog_write64, recorded, List.append_assoc]
      rfl

/-- What the event ring registers are set to, if there is a ring, in the order of the source and
with the values of the plain model. -/
theorem logs_setEventRing (set : Addr) (r : EventRing) (bufSize : Nat) (pool : Pool) :
    writeLog.Keeps (fun result writes' => writes' = writes ∧
      ∃ regs,
        ({ r with interrupter := regs } : EventRing).initializeEventRing bufSize pool = result)
      (initializeEventRing set r bufSize pool) writes := by
  unfold initializeEventRing
  have hset : ∀ result : Error × EventRing × Pool, r.initializeEventRing bufSize pool = result →
      writeLog.Keeps (fun result writes' => writes' = writes ∧ ∃ regs,
        ({ r with interrupter := regs } : EventRing).initializeEventRing bufSize pool = result)
        (setEventRing set result) writes := by
    intro ⟨err, er, pool'⟩ her
    by_cases herr : err = .kSuccess
    · subst herr
      refine keeps_read32 trivial fun erstsz _ => keeps_write32 trivial ?_
      refine keeps_read64 trivial fun erdp _ => keeps_write64 trivial ?_
      refine keeps_read64 trivial fun erstba _ => keeps_write64 trivial ?_
      simp only [writeLog_read32, writeLog_read64, writeLog_write32, writeLog_write64, recorded,
        List.append_nil]
      exact ⟨rfl, ⟨erstsz, erstba, erdp⟩, initializeEventRing_registers her _⟩
    · change writeLog.Keeps _ (if err ≠ .kSuccess then _ else _) _
      rw [if_pos herr]
      exact ⟨rfl, r.interrupter, her⟩
  exact hset _ rfl

/-- The rings: what is written from here on is what `useCommandRing` writes, for some values of
the registers that are read on the way. -/
theorem logs_setUpRings (set : Addr) (c : Controller) :
    writeLog.Keeps (fun result writes' => ∃ crcr iman u₂ regs, ∀ hw : PowerOn, hw.crcr = crcr →
      hw.iman = iman → hw.usbcmd 2 = u₂ → Controller.useCommandRing hw (c.withInterrupter regs)
        writes (c.cr.initializeRing 32 c.pool) = (result.1, result.2, writes'))
      (setUpRings set c) writes := by
  unfold setUpRings
  have hset : ∀ ring : Error × Ring × Pool, writeLog.Keeps (fun result writes' =>
      ∃ crcr iman u₂ regs, ∀ hw : PowerOn, hw.crcr = crcr → hw.iman = iman → hw.usbcmd 2 = u₂ →
        Controller.useCommandRing hw (c.withInterrupter regs) writes ring =
          (result.1, result.2, writes')) (setCommandRing set c ring) writes := by
    intro ⟨err, cr, pool⟩
    by_cases hcr : err = .kSuccess
    case neg =>
      change writeLog.Keeps _ (if err ≠ .kSuccess then _ else _) _
      rw [if_pos hcr]
      exact ⟨0, 0, 0, c.er.interrupter, fun hw _ _ _ => if_pos hcr⟩
    subst hcr
    refine keeps_read64 trivial fun crcr _ => keeps_write64 trivial (keeps_seq ?_)
    simp only [writeLog_read64, writeLog_write64, recorded]
    refine (logs_setEventRing set c.er 32 pool).mono fun result writes₁ h₁ => ?_
    obtain ⟨rfl, regs, her⟩ := h₁
    obtain ⟨err, er, pool'⟩ := result
    have hring : ∀ hw : PowerOn, hw.crcr = crcr →
        Controller.useCommandRing hw (c.withInterrupter regs) writes (.kSuccess, cr, pool) =
          Controller.useEventRing hw { c.withInterrupter regs with cr := cr, pool := pool }
            (writes ++ [.crcr (registerCommandRing crcr cr.buf)]) (err, er, pool') := by
      intro hw hcrcr
      unfold Controller.useCommandRing
      rw [if_neg (not_not.mpr rfl), hcrcr]
      exact congrArg _ her
    by_cases herr : err = .kSuccess
    · subst herr
      refine keeps_seq (keeps_read32 trivial fun iman _ => keeps_write32 trivial ?_)
      refine keeps_read32 trivial fun u₂ _ => keeps_write32 trivial ?_
      simp only [writeLog_read32, writeLog_write32, recorded]
      refine ⟨crcr, iman, u₂, regs, fun hw hcrcr himan hu₂ => ?_⟩
      rw [hring hw hcrcr, Controller.useEventRing, if_neg (not_not.mpr rfl), himan, hu₂,
        List.append_assoc _ [RegisterWrite.iman _]]
      rfl
    · change writeLog.Keeps _ (if err ≠ .kSuccess then _ else _) _
      rw [if_pos herr]
      refine ⟨crcr, 0, 0, regs, fun hw hcrcr _ _ => ?_⟩
      rw [hring hw hcrcr]
      exact if_pos herr
  exact hset _

/-- The scratchpad buffers have nothing to do with the event ring, so its registers may be set
before or after. -/
theorem initializeScratchpad_withInterrupter {c c' : Controller} {n : Nat}
    (h : c.initializeScratchpad n = .ok c') (regs : InterrupterRegisterSet) :
    (c.withInterrupter regs).initializeScratchpad n = .ok (c'.withInterrupter regs) := by
  unfold Controller.initializeScratchpad at h ⊢
  by_cases hn : 0 < n
  · rw [if_pos hn] at h ⊢
    change Controller.useScratchpadArray _ _ (c.pool.allocArray 8 (BitVec.ofNat 64 n) 64 4096) = _
    generalize c.pool.allocArray 8 (BitVec.ofNat 64 n) 64 4096 = block at h ⊢
    unfold Controller.useScratchpadArray at h ⊢
    by_cases hblock : block.1 = nullptr
    · rw [if_pos hblock] at h
      cases h
    · rw [if_neg hblock] at h ⊢
      cases h
      rfl
  · rw [if_neg hn] at h ⊢
    cases h
    rfl

/-- **What `Initialize` does, apart from its handshakes.**  Whatever the registers show, if it
returns it has done what `initializeController` does for some values of the registers, with the
same error, the same structures of the driver, and the same writes in the same order. -/
theorem initializeXhc_refines (fuel : Nat) (mmioBase : Addr) (c : Controller)
    {trace : List (Exchange Access.Reply)} {err : Error} {c' : Controller}
    (hrun : Runs (initializeXhc fuel mmioBase c) trace (.done (.ok (err, c')))) :
    ∃ hw regs, hw.handshakesEnd = true ∧
      Controller.initializeController hw (c.withInterrupter regs) =
        .ok (err, c', trace.flatMap fun e => recorded e.question) := by
  have hset : ∀ manager : Error × DeviceManager × Pool, writeLog.Keeps (fun result writes =>
      ∀ err c', result = .ok (err, c') → ∃ hw regs, hw.handshakesEnd = true ∧
        Controller.useDeviceManager hw (c.withInterrupter regs) manager = .ok (err, c', writes))
      (setUpController fuel mmioBase c manager) [] := by
    intro ⟨err, devmgr, pool⟩
    by_cases herr : err = .kSuccess
    · subst herr
      refine keeps_read32 trivial fun _ _ => keeps_seqOk (fun _ _ _ _ h => nomatch h) ?_
      refine (logs_requestHCOwnership fuel mmioBase _).mono fun _ writes₁ h₁ _ _ => keeps_seq ?_
      subst h₁
      refine logs_haltAndReset.mono fun _ writes₂ h₂ => keeps_seqOk (fun _ _ _ _ h => nomatch h) ?_
      obtain ⟨u₀, u₁, halted, rfl⟩ := h₂
      refine (logs_setUpContexts _).mono fun result writes₃ h₃ c₁ hc₁ => ?_
      obtain ⟨config, hcsparams2, hscratchpad, rfl⟩ := h₃ c₁ hc₁
      refine keeps_read32 trivial fun rtsoff _ => keeps_seq ?_
      refine (logs_setUpRings _ c₁).mono fun result writes₄ h₄ => ?_
      obtain ⟨crcr, iman, u₂, regs, hrings⟩ := h₄
      intro err c' heq
      cases heq
      let hw : PowerOn := ⟨hcsparams2, fun k => if k = 0 then u₀ else if k = 1 then u₁ else u₂,
        halted, config, crcr, iman, true⟩
      refine ⟨hw, regs, rfl, ?_⟩
      have hscratchpad' := initializeScratchpad_withInterrupter hscratchpad regs
      have hrings' := hrings hw rfl rfl rfl
      simp only [writeLog_read32, List.nil_append] at hrings'
      change ((({ c with devmgr := devmgr, pool := pool } : Controller).withInterrupter
        regs).initializeScratchpad (maxScratchpadBuffers hcsparams2) >>= fun c => _) = _
      rw [hscratchpad']
      exact congrArg Except.ok hrings'
    · change writeLog.Keeps _ (if err ≠ .kSuccess then _ else _) _
      rw [if_pos herr]
      intro err' c' heq
      cases heq
      exact ⟨⟨0, fun _ => 0, false, 0, 0, 0, true⟩, c.er.interrupter, rfl, if_pos herr⟩
  have hlog : ∀ (trace : List (Exchange Access.Reply)) (writes : List RegisterWrite),
      writeLog.after writes trace = writes ++ trace.flatMap fun e => recorded e.question := by
    intro trace
    induction trace with
    | nil => exact fun writes => (List.append_nil writes).symm
    | cons e trace ih =>
        intro writes
        rw [List.flatMap_cons, ← List.append_assoc]
        exact ih (writes ++ recorded e.question)
  have hresult := ((hset _).sound hrun (Protocol.answered_of_expected (fun _ _ => trivial) _ _)).2
  rw [hlog, List.nil_append] at hresult
  exact hresult err c' rfl

/-- A controller whose registers all read as the code waits for: `Initialize` succeeds on it,
and its writes are those of the plain model. -/
theorem initializeXhc_refines_small : ∃ (trace : List (Exchange Access.Reply)) (c' : Controller)
    (hw : PowerOn) (regs : InterrupterRegisterSet), hw.handshakesEnd = true ∧
      Controller.initializeController hw (Controller.sampleNew.withInterrupter regs) =
        .ok (.kSuccess, c', trace.flatMap fun e => recorded e.question) := by
  obtain ⟨c', usbcmd, hends⟩ := smallController_ends
  obtain ⟨trace, hrun, -⟩ := @Machine.runs_of_run _ _ _ _ _ smallController 1 0 writeLog
    (fun _ _ => True) (fun _ _ _ _ => ⟨trivial, trivial⟩) _ _ _ [] trivial hends
  obtain ⟨hw, regs, hend, hresult⟩ := initializeXhc_refines 1 0 Controller.sampleNew hrun
  exact ⟨trace, c', hw, regs, hend, hresult⟩

end Log

/-! ## The order of the accesses -/

/-- What does not change in the hardware: the ids and links of its extended capabilities, and
where its runtime registers are. -/
structure Hardware where
  header : Addr → BitVec 16
  rtsoff : BitVec 32

/-- The extended capability is USBLEGSUP. -/
def Hardware.IsLegacy (hw : Hardware) (reg : Addr) : Prop := field (hw.header reg) 0 8 = 1

instance (hw : Hardware) (reg : Addr) : Decidable (hw.IsLegacy reg) :=
  inferInstanceAs (Decidable (_ = _))

/-- How far the reset is. -/
inductive ResetPhase where
  | before
  | resetting
  | notReady
  | ready
  deriving DecidableEq, Repr

/-- What the accesses so far have come to. -/
structure StartUp where
  /-- The last value read from USBLEGSUP. -/
  legacy : Option (BitVec 32)
  /-- The driver has asked the firmware to hand over. -/
  asked : Bool
  /-- The controller had halted when USBSTS was last read. -/
  halted : Bool
  phase : ResetPhase
  /-- The controller was told to run. -/
  running : Bool
  /-- What was last written since the reset. -/
  reg32 : Reg32 → Option (BitVec 32)
  reg64 : Reg64 → Option (BitVec 64)

namespace StartUp

/-- Before the first access. -/
def initial : StartUp := ⟨none, false, false, .before, false, fun _ => none, fun _ => none⟩

/-- A write to a register. -/
def set32 (s : StartUp) (r : Reg32) (value : BitVec 32) : StartUp :=
  { s with reg32 := Function.update s.reg32 r (some value) }

def set64 (s : StartUp) (r : Reg64) (value : BitVec 64) : StartUp :=
  { s with reg64 := Function.update s.reg64 r (some value) }

section

variable (s : StartUp) (r : Reg32) (v : BitVec 32) (r' : Reg64) (v' : BitVec 64)

@[simp] theorem set32_reg32 : (s.set32 r v).reg32 = Function.update s.reg32 r (some v) := rfl

@[simp] theorem set32_reg64 : (s.set32 r v).reg64 = s.reg64 := rfl

@[simp] theorem set64_reg32 : (s.set64 r' v').reg32 = s.reg32 := rfl

@[simp] theorem set64_reg64 : (s.set64 r' v').reg64 = Function.update s.reg64 r' (some v') := rfl

end

/-- A read of USBSTS. -/
def seeStatus (s : StartUp) (usbsts : BitVec 32) : StartUp :=
  { s with
    halted := hostControllerHalted usbsts
    phase := if s.phase = .notReady ∧ controllerNotReady usbsts = false then .ready else s.phase }

/-- A read of USBCMD. -/
def seeCommand (s : StartUp) (usbcmd : BitVec 32) : StartUp :=
  { s with
    phase := if s.phase = .resetting ∧ hostControllerReset usbcmd = false then .notReady
      else s.phase }

/-- A write to USBCMD that is no reset. -/
def holdCommand (s : StartUp) (usbcmd : BitVec 32) : StartUp :=
  { s.set32 .usbcmd usbcmd with running := runStop usbcmd }

/-- Holding a command is a write to USBCMD and to no other register. -/
@[simp] theorem holdCommand_reg32 (s : StartUp) (v : BitVec 32) : (s.holdCommand v).reg32 =
    Function.update s.reg32 .usbcmd (some v) := rfl

/-- A write of USBCMD that starts no reset leaves the 64-bit registers alone. -/
@[simp] theorem holdCommand_reg64 (s : StartUp) (v : BitVec 32) :
    (s.holdCommand v).reg64 = s.reg64 := rfl

/-- A write to USBCMD.  A reset clears the registers. -/
def setCommand (s : StartUp) (usbcmd : BitVec 32) : StartUp :=
  if hostControllerReset usbcmd then
    ⟨s.legacy, s.asked, s.halted, .resetting, false, fun _ => none, fun _ => none⟩
  else s.holdCommand usbcmd

/-- The state after an access. -/
def after (hw : Hardware) (s : StartUp) : (a : Access) → a.Reply → StartUp
  | .read32 (.extended reg), v => if hw.IsLegacy reg then { s with legacy := some v } else s
  | .read32 .usbsts, v => s.seeStatus v
  | .read32 .usbcmd, v => s.seeCommand v
  | .write32 (.extended _) _, _ => { s with asked := true }
  | .write32 .usbcmd v, _ => s.setCommand v
  | .write32 r v, _ => s.set32 r v
  | .write64 r v, _ => s.set64 r v
  | _, _ => s

/-- The answers of a controller: the reset bit and the run bit of USBCMD are as the driver has
left them. -/
def Expected (hw : Hardware) (s : StartUp) : (a : Access) → a.Reply → Prop
  | .read32 (.extended reg), v => BitVec.setWidth 16 v = hw.header reg
  | .read32 .rtsoff, v => v = hw.rtsoff
  | .read32 .usbcmd, v => (s.phase ≠ .resetting → hostControllerReset v = false) ∧
      (s.phase = .ready → runStop v = s.running)
  | _, _ => True

/-- The firmware has handed over, if there is a USBLEGSUP: what was last read of it has the
driver's semaphore and not that of the BIOS. -/
def HandedOver (s : StartUp) : Prop :=
  ∀ v, s.legacy = some v → hcOsOwnedSemaphore v = true ∧ hcBiosOwnedSemaphore v = false

/-- The driver has found both semaphores set without having asked.  It takes that for a
hand-over that is over, although the BIOS still has the controller. -/
def FoundBoth (s : StartUp) : Prop :=
  s.asked = false ∧
    ∃ v, s.legacy = some v ∧ hcOsOwnedSemaphore v = true ∧ hcBiosOwnedSemaphore v = true

/-- The controller is the driver's, or the driver has not waited for the BIOS, which it fails to
do in one case only. -/
def Owned (s : StartUp) : Prop := s.HandedOver ∨ s.FoundBoth

/-- Whose the controller is shows in what is known of USBLEGSUP. -/
theorem Owned.congr {s s' : StartUp} (h : s.Owned) (hlegacy : s'.legacy = s.legacy)
    (hasked : s'.asked = s.asked) : s'.Owned := by
  unfold Owned HandedOver FoundBoth at h ⊢
  rw [hlegacy, hasked]
  exact h

/-- The controller is the driver's, and stands still after its reset. -/
structure Idle (s : StartUp) : Prop where
  owned : s.Owned
  ready : s.phase = .ready
  stopped : s.running = false

/-- The controller was told where everything is. -/
def IsSet (s : StartUp) (set : Addr) : Prop :=
  (s.reg32 .config).isSome ∧ (s.reg64 .dcbaap).isSome ∧ (s.reg64 .crcr).isSome ∧
    (s.reg32 (.erstsz set)).isSome ∧ (s.reg64 (.erdp set)).isSome ∧ (s.reg64 (.erstba set)).isSome

/-- The order of the accesses. -/
def Allowed (hw : Hardware) (mmioBase : Addr) (s : StartUp) : Access → Prop
  | .read32 r => (s.phase = .resetting → r = .usbcmd) ∧ (s.phase = .notReady → r = .usbsts)
  | .read64 _ => s.phase ≠ .resetting ∧ s.phase ≠ .notReady
  | .write32 (.extended reg) v => s.phase = .before ∧ hw.IsLegacy reg ∧
      ∃ w, s.legacy = some w ∧ hcOsOwnedSemaphore w = false ∧ v = setField w 24 (1 : BitVec 1)
  | .write32 .usbcmd v => s.Owned ∧
      (s.phase = .before ∧ (hostControllerReset v = true → s.halted = true) ∨
        s.phase = .ready ∧ hostControllerReset v = false ∧
          (runStop v = true → s.IsSet (interrupterRegisterSet mmioBase hw.rtsoff)))
  | .write32 _ _ => s.Idle
  | .write64 _ _ => s.Idle

/-- The registers have what the driver's structures have. -/
structure Complete (s : StartUp) (c : Controller) (set : Addr) : Prop where
  idle : s.Idle
  config : ∃ v, s.reg32 .config = some v ∧ field v 0 8 = BitVec.ofNat 8 kDeviceSize
  dcbaap : s.reg64 .dcbaap = some (dcbaapOf c.devmgr.contextArray)
  crcr : ∃ v, s.reg64 .crcr = some (registerCommandRing v c.cr.buf)
  erstsz : s.reg32 (.erstsz set) = some c.er.interrupter.erstsz
  erdp : s.reg64 (.erdp set) = some c.er.interrupter.erdp
  erstba : s.reg64 (.erstba set) = some c.er.interrupter.erstba
  iman : ∃ v, s.reg32 (.iman set) = some v ∧ field v 0 2 = 3
  usbcmd : ∃ v, s.reg32 .usbcmd = some v ∧ field v 2 1 = 1

end StartUp

section Order

variable {hw : Hardware} {mmioBase : Addr} {s : StartUp}

/-- The state during the hand-over: nothing but what is known of USBLEGSUP. -/
def StartUp.handOver (legacy : Option (BitVec 32)) (asked : Bool) : StartUp :=
  { StartUp.initial with legacy := legacy, asked := asked }

/-- A controller that stands still goes on standing still while its registers are set. -/
theorem StartUp.Idle.set32 (h : s.Idle) (r : Reg32) (v : BitVec 32) : (s.set32 r v).Idle :=
  ⟨h.owned, h.ready, h.stopped⟩

/-- A controller that is idle stays so when a 64-bit register is written. -/
theorem StartUp.Idle.set64 (h : s.Idle) (r : Reg64) (v : BitVec 64) : (s.set64 r v).Idle :=
  ⟨h.owned, h.ready, h.stopped⟩

end Order

end Mikanos.Xhci
