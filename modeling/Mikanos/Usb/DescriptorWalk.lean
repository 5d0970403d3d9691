import Mikanos.Lib.Cursor
import Mikanos.Usb.ConfigurationParsing

/-!
# Walking over arbitrary bytes

What `InitializePhase2` does with a buffer a device may send, well-formed or not.
`descriptor b k` is the `k`-th descriptor of the buffer, where the length bytes
lead; it is the rest of the buffer from its first byte on.

The walk has two parts.  The first one steps from descriptor to descriptor until
it finds an interface with a class driver (`Skips`), the second one until it has
seen as many endpoint descriptors as that interface announces (`Takes`).  Each
part takes every step, or stops at the first one that it cannot take, and the
loops of the source do the same: they end as the step says that they stop at, or
they never end (`search_end`, `endpoints_end`).
-/

namespace Mikanos.Xhci.Device

open Mikanos.Usb

/-! ## The descriptors of a buffer -/

/-- The length byte of a descriptor that starts at `p`. -/
def bLengthAt (b : List (BitVec 8)) (p : Nat) : Nat := (b.getD p 0).toNat

/-- Where descriptor number `k` starts. -/
def offset (b : List (BitVec 8)) (k : Nat) : Nat := Cursor.position (bLengthAt b) k

/-- Descriptor number `k`, with everything behind it. -/
def descriptor (b : List (BitVec 8)) (k : Nat) : Descriptor := b.drop (offset b k)

namespace Descriptor

/-- An interface descriptor with a class driver. -/
def Supported (d : Descriptor) : Prop :=
  d.type = kInterfaceDescriptor ∧ (supportedKind d.interface).isSome

instance (d : Descriptor) : Decidable d.Supported := inferInstanceAs (Decidable (_ ∧ _))

/-- What the search for an interface reads of a descriptor is there. -/
def HeaderFits (d : Descriptor) : Prop :=
  2 ≤ d.length ∧ (d.type = kInterfaceDescriptor → 8 ≤ d.length)

/-- What the search for endpoints reads of a descriptor is there. -/
def EndpointFits (d : Descriptor) : Prop :=
  2 ≤ d.length ∧ (d.type = kEndpointDescriptor → 7 ≤ d.length) ∧
    (d.type = kHidDescriptor → 6 + 3 * (d.byteAt 5).toNat ≤ d.length)

instance (d : Descriptor) : Decidable d.HeaderFits := inferInstanceAs (Decidable (_ ∧ (_ → _)))

instance (d : Descriptor) : Decidable d.EndpointFits :=
  inferInstanceAs (Decidable (_ ∧ (_ → _) ∧ (_ → _)))

end Descriptor

/-- The search for an interface goes on behind descriptor number `k + 1`. -/
structure Skips (b : List (BitVec 8)) (len k : Nat) : Prop where
  inside : offset b (k + 1) < len
  fits : (descriptor b (k + 1)).HeaderFits
  unsupported : ¬ (descriptor b (k + 1)).Supported

/-- The endpoint descriptors among the `j` descriptors behind number `i`. -/
def endpointsSeen (b : List (BitVec 8)) (i : Nat) : Nat → List Descriptor
  | 0 => []
  | j + 1 =>
      endpointsSeen b i j ++
        if (descriptor b (i + j + 1)).type = kEndpointDescriptor then [descriptor b (i + j + 1)]
        else []

/-- The search for the `n` endpoints of interface number `i` goes on behind
descriptor number `i + j + 1`. -/
structure Takes (b : List (BitVec 8)) (len i n j : Nat) : Prop where
  more : (endpointsSeen b i j).length < n
  inside : offset b (i + j + 1) < len
  fits : (descriptor b (i + j + 1)).EndpointFits
  room : (descriptor b (i + j + 1)).type = kEndpointDescriptor → (endpointsSeen b i j).length < 16

/-- The reader at descriptor number `k`. -/
def readerAt (m : Dma) (buf : Addr) (len k : Nat) : Reader :=
  ⟨buf, len, offset (m.bytes buf) k⟩

section Reading

variable {m : Dma} {buf : Addr}

/-- A byte of the buffer is there and is read, or it is behind the end and reading it is out of
bounds. -/
theorem byte_cases (hbuf : buf ≠ nullptr) (p : Nat) :
    (p < (m.bytes buf).length ∧ m.byte buf p = .ok ((m.bytes buf).getD p 0)) ∨
      ((m.bytes buf).length ≤ p ∧ m.byte buf p = .error .outOfBounds) := by
  unfold Dma.byte
  rw [if_neg hbuf]
  rcases Nat.lt_or_ge p (m.bytes buf).length with hlt | hge
  · left
    refine ⟨hlt, ?_⟩
    rw [List.getD_eq_getElem?_getD, List.getElem?_eq_getElem hlt, Option.getD_some]
  · right
    refine ⟨hge, ?_⟩
    rw [List.getElem?_eq_none hge]

/-- Where a byte can be read there is data. -/
theorem length_pos_of_byte {p : Nat} {value : BitVec 8} (hbuf : buf ≠ nullptr)
    (h : m.byte buf p = .ok value) : 0 < (m.bytes buf).length := by
  rcases byte_cases (m := m) hbuf p with ⟨hlt, -⟩ | ⟨-, hbyte⟩
  · omega
  · rw [hbyte] at h
    cases h

theorem length_descriptor (b : List (BitVec 8)) (k : Nat) :
    (descriptor b k).length = b.length - offset b k := List.length_drop

theorem byteAt_descriptor (b : List (BitVec 8)) (k i : Nat) :
    (descriptor b k).byteAt i = b.getD (offset b k + i) 0 := by
  rw [Descriptor.byteAt, descriptor, List.getD_eq_getElem?_getD, List.getD_eq_getElem?_getD,
    List.getElem?_drop]

/-- A byte of a descriptor that is there. -/
theorem byte_descriptor (hbuf : buf ≠ nullptr) {k i : Nat}
    (hi : i < (descriptor (m.bytes buf) k).length) :
    m.byte buf (offset (m.bytes buf) k + i) = .ok ((descriptor (m.bytes buf) k).byteAt i) := by
  rw [length_descriptor] at hi
  rcases byte_cases (m := m) hbuf (offset (m.bytes buf) k + i) with ⟨-, hbyte⟩ | ⟨hge, -⟩
  · rw [hbyte, byteAt_descriptor]
  · omega

/-- A byte of a descriptor that is not there. -/
theorem byte_beyond (hbuf : buf ≠ nullptr) {k i : Nat}
    (hi : (descriptor (m.bytes buf) k).length ≤ i) :
    m.byte buf (offset (m.bytes buf) k + i) = .error .outOfBounds := by
  rw [length_descriptor] at hi
  rcases byte_cases (m := m) hbuf (offset (m.bytes buf) k + i) with ⟨hlt, -⟩ | ⟨-, hbyte⟩
  · omega
  · exact hbyte

/-- Every byte is read, or reading fails. -/
theorem byte_bind_beyond {α : Type} (hbuf : buf ≠ nullptr) (p : Nat)
    {f : BitVec 8 → Except Fault α} (hf : ∀ x, f x = .error .outOfBounds) :
    (m.byte buf p).bind f = .error .outOfBounds := by
  rcases byte_cases hbuf p with ⟨-, hbyte⟩ | ⟨-, hbyte⟩
  · rw [hbyte, bind_ok, hf]
  · rw [hbyte]
    rfl

/-- Reading an interface descriptor. -/
theorem readInterface_descriptor (hbuf : buf ≠ nullptr) {k : Nat}
    (hfits : 8 ≤ (descriptor (m.bytes buf) k).length) :
    readInterface m buf (offset (m.bytes buf) k) =
      .ok (descriptor (m.bytes buf) k).interface := by
  rw [readInterface, byte_descriptor hbuf (by omega), byte_descriptor hbuf (by omega),
    byte_descriptor hbuf (by omega), byte_descriptor hbuf (by omega),
    byte_descriptor hbuf (by omega)]
  rfl

/-- Reading an interface descriptor that is cut off. -/
theorem readInterface_beyond (hbuf : buf ≠ nullptr) {k : Nat}
    (hshort : (descriptor (m.bytes buf) k).length < 8) :
    readInterface m buf (offset (m.bytes buf) k) = .error .outOfBounds := by
  have hlast := byte_beyond hbuf (i := 7) (Nat.le_of_lt_succ hshort)
  refine byte_bind_beyond hbuf _ fun _ => byte_bind_beyond hbuf _ fun _ =>
    byte_bind_beyond hbuf _ fun _ => byte_bind_beyond hbuf _ fun _ => ?_
  rw [hlast]
  rfl

/-- Reading an endpoint descriptor. -/
theorem readEPConfig_descriptor (hbuf : buf ≠ nullptr) {k : Nat}
    (hfits : 7 ≤ (descriptor (m.bytes buf) k).length) :
    readEPConfig m buf (offset (m.bytes buf) k) =
      .ok (descriptor (m.bytes buf) k).epConfig := by
  rw [readEPConfig, byte_descriptor hbuf (by omega), byte_descriptor hbuf (by omega),
    byte_descriptor hbuf (by omega), byte_descriptor hbuf (by omega),
    byte_descriptor hbuf (by omega)]
  rfl

/-- Reading an endpoint descriptor that is cut off. -/
theorem readEPConfig_beyond (hbuf : buf ≠ nullptr) {k : Nat}
    (hshort : (descriptor (m.bytes buf) k).length < 7) :
    readEPConfig m buf (offset (m.bytes buf) k) = .error .outOfBounds := by
  have hlast := byte_beyond hbuf (i := 6) (Nat.le_of_lt_succ hshort)
  refine byte_bind_beyond hbuf _ fun _ => byte_bind_beyond hbuf _ fun _ =>
    byte_bind_beyond hbuf _ fun _ => byte_bind_beyond hbuf _ fun _ => ?_
  rw [hlast]
  rfl

/-- Reading a run of bytes the last of which is not there is out of bounds, wherever the run
starts. -/
theorem readBytes_beyond (hbuf : buf ≠ nullptr) {n : Nat} : ∀ {i : Nat},
    (m.bytes buf).length < i + n → 0 < n → readBytes m buf i n = .error .outOfBounds := by
  induction n with
  | zero => exact fun _ hpos => absurd hpos (Nat.lt_irrefl 0)
  | succ n ih =>
      intro i hlength _
      rw [readBytes, List.range'_succ, List.mapM_cons, ← readBytes]
      rcases byte_cases hbuf i with ⟨hlt, hbyte⟩ | ⟨-, hbyte⟩
      · rw [hbyte, ih (i := i + 1) (by omega) (by omega)]
        rfl
      · rw [hbyte]
        rfl

/-- Logging a HID descriptor ends without a fault if the descriptor is as long as its number of
class descriptors says. -/
theorem logHid_descriptor (hbuf : buf ≠ nullptr) {k : Nat}
    (hfits : 6 + 3 * ((descriptor (m.bytes buf) k).byteAt 5).toNat ≤
      (descriptor (m.bytes buf) k).length) :
    logHid m buf (offset (m.bytes buf) k) = .ok () := by
  obtain ⟨bs, hbs⟩ := readBytes_ok (m := m) (p := buf)
    (n := 3 * ((descriptor (m.bytes buf) k).byteAt 5).toNat) (i := offset (m.bytes buf) k + 6)
    fun j hj => ⟨(descriptor (m.bytes buf) k).byteAt (6 + j), by
      rw [Nat.add_assoc]
      exact byte_descriptor hbuf (by omega)⟩
  rw [logHid, byte_descriptor hbuf (by omega), byte_descriptor hbuf (by omega),
    byte_descriptor hbuf (by omega)]
  show (readBytes m buf (offset (m.bytes buf) k + 6) _).bind _ = _
  rw [hbs]
  rfl

/-- Logging a HID descriptor that is cut off reads behind the bytes that are there, which is out
of bounds. -/
theorem logHid_beyond (hbuf : buf ≠ nullptr) {k : Nat}
    (hshort : (descriptor (m.bytes buf) k).length <
      6 + 3 * ((descriptor (m.bytes buf) k).byteAt 5).toNat) :
    logHid m buf (offset (m.bytes buf) k) = .error .outOfBounds := by
  refine byte_bind_beyond hbuf _ fun _ => byte_bind_beyond hbuf _ fun _ => ?_
  rcases Nat.lt_or_ge 5 (descriptor (m.bytes buf) k).length with hlt | hge
  · have hlength := length_descriptor (m.bytes buf) k
    rw [byte_descriptor hbuf hlt]
    show (readBytes m buf (offset (m.bytes buf) k + 6) _).bind _ = _
    rw [readBytes_beyond hbuf (by omega) (by omega)]
    rfl
  · rw [byte_beyond hbuf hge]
    rfl

/-- One `Next` goes on by the length of the descriptor at the cursor, and finds something as
long as that leads to a place within `len`. -/
theorem next_readerAt (hbuf : buf ≠ nullptr) {len k : Nat}
    (hinside : offset (m.bytes buf) k < (m.bytes buf).length) :
    (readerAt m buf len k).next m =
      .ok (if offset (m.bytes buf) (k + 1) < len then some (offset (m.bytes buf) (k + 1)) else none,
        readerAt m buf len (k + 1)) := by
  rcases byte_cases hbuf (offset (m.bytes buf) k) with ⟨-, hbyte⟩ | ⟨hge, -⟩
  · unfold Reader.next
    show (m.byte buf (offset (m.bytes buf) k)).bind _ = _
    rw [hbyte, bind_ok]
    show Except.ok (if ((offset (m.bytes buf) (k + 1) : Nat) : Int) < (len : Int) then
      some (offset (m.bytes buf) (k + 1)) else none, readerAt m buf len (k + 1)) = _
    simp only [Int.ofNat_lt]
  · omega

end Reading

/-! ## Looking for an interface -/

/-- The body of the interface loop behind `Next<InterfaceDescriptor>`. -/
def useInterface (m : Dma) (obs : DefaultObservers) (loopFuel fuel : Nat) (dev : Device)
    (pool : Usb.Pool) (found : Option Nat × Reader) : Except Fault (Addr × Device × Usb.Pool) :=
  match found.1 with
  | none => .ok (nullptr, dev, pool)
  | some d =>
      (readInterface m found.2.descBuf d).bind fun ifDesc =>
        (newClassDriver obs dev ifDesc pool).bind fun x =>
          if x.1 = nullptr then interfaceLoop m obs loopFuel fuel found.2 x.2.1 x.2.2
          else (endpointLoop m ifDesc.numEndpoints x.1 loopFuel found.2 x.2.1.clearEndpoints).bind
            fun y => .ok (x.1, y.2, x.2.2)

/-- The device when the driver for a supported interface has been created. -/
def withDriver (obs : DefaultObservers) (dev : Device) (classDriver : Addr) (kind : HidKind)
    (ifDesc : InterfaceDescriptor) : Device :=
  (dev.setDriver classDriver
    (newHidDriver kind ifDesc.interfaceNumber (obs.count kind))).clearEndpoints

/-- How the search for an interface ends that cannot step over descriptor number
`k + 1`. -/
inductive SearchEnd (m : Dma) (obs : DefaultObservers) (buf : Addr) (len fuel : Nat)
    (dev : Device) (pool : Usb.Pool) (block : Addr × Usb.Pool) (k : Nat)
    (result : Except Fault (Addr × Device × Usb.Pool)) : Prop
  | nothing (hend : len ≤ offset (m.bytes buf) (k + 1))
      (hresult : result = .ok (nullptr, dev, pool))
  | cutOff (hinside : offset (m.bytes buf) (k + 1) < len)
      (hcut : ¬ (descriptor (m.bytes buf) (k + 1)).HeaderFits)
      (hresult : result = .error .outOfBounds)
  | noMemory (hinside : offset (m.bytes buf) (k + 1) < len)
      (hfits : (descriptor (m.bytes buf) (k + 1)).HeaderFits)
      (hsupported : (descriptor (m.bytes buf) (k + 1)).Supported)
      (hpool : block.1 = nullptr) (hresult : result = .error .nullDereference)
  | interface (kind : HidKind) (hinside : offset (m.bytes buf) (k + 1) < len)
      (hfits : (descriptor (m.bytes buf) (k + 1)).HeaderFits)
      (hsupported : (descriptor (m.bytes buf) (k + 1)).Supported)
      (hkind : supportedKind (descriptor (m.bytes buf) (k + 1)).interface = some kind)
      (hpool : block.1 ≠ nullptr)
      (hresult : result = (endpointLoop m
        (descriptor (m.bytes buf) (k + 1)).interface.numEndpoints block.1 fuel
        (readerAt m buf len (k + 1)) (withDriver obs dev block.1 kind
          (descriptor (m.bytes buf) (k + 1)).interface)).bind
            fun y => .ok (block.1, y.2, block.2))

section Search

variable {m : Dma} {obs : DefaultObservers} {buf : Addr} {len : Nat} {dev : Device}
  {pool : Usb.Pool}

theorem interfaceLoop_succ (loopFuel fuel : Nat) (r : Reader) :
    interfaceLoop m obs loopFuel (fuel + 1) r dev pool =
      (r.nextOf m kInterfaceDescriptor loopFuel).bind
        (useInterface m obs loopFuel fuel dev pool) := rfl

/-- `Next<T>` at the last descriptor. -/
theorem nextOf_end (hbuf : buf ≠ nullptr) {kType : BitVec 8} {fuel k : Nat}
    (hinside : offset (m.bytes buf) k < (m.bytes buf).length)
    (hend : len ≤ offset (m.bytes buf) (k + 1)) :
    (readerAt m buf len k).nextOf m kType (fuel + 1) =
      .ok (none, readerAt m buf len (k + 1)) := by
  show ((readerAt m buf len k).next m).bind _ = _
  rw [next_readerAt hbuf hinside, if_neg (Nat.not_lt.mpr hend)]
  rfl

/-- `Next<T>` where another descriptor follows. -/
theorem nextOf_succ (hbuf : buf ≠ nullptr) {kType : BitVec 8} {fuel k : Nat}
    (hinside : offset (m.bytes buf) k < (m.bytes buf).length)
    (hmore : offset (m.bytes buf) (k + 1) < len) :
    (readerAt m buf len k).nextOf m kType (fuel + 1) =
      (m.byte buf (offset (m.bytes buf) (k + 1) + 1)).bind fun type =>
        if type = kType then
          .ok (some (offset (m.bytes buf) (k + 1)), readerAt m buf len (k + 1))
        else (readerAt m buf len (k + 1)).nextOf m kType fuel := by
  show ((readerAt m buf len k).next m).bind _ = _
  rw [next_readerAt hbuf hinside, if_pos hmore]
  rfl

/-- A descriptor that is reached starts inside the buffer. -/
theorem offset_lt_of_skips (hlen : len ≤ (m.bytes buf).length) (hpos : 0 < (m.bytes buf).length)
    {k : Nat} (hskips : ∀ j, j < k → Skips (m.bytes buf) len j) :
    offset (m.bytes buf) k < (m.bytes buf).length := by
  cases k with
  | zero => exact hpos
  | succ k => exact Nat.lt_of_lt_of_le (hskips k (Nat.lt_succ_self k)).inside hlen

/-- The type byte of a descriptor that fits. -/
theorem type_descriptor (hbuf : buf ≠ nullptr) {k : Nat}
    (hfits : 2 ≤ (descriptor (m.bytes buf) k).length) :
    m.byte buf (offset (m.bytes buf) k + 1) = .ok (descriptor (m.bytes buf) k).type :=
  byte_descriptor hbuf hfits

/-- An interface without a class driver is passed over. -/
theorem useInterface_unsupported (hbuf : buf ≠ nullptr) {loopFuel fuel k : Nat}
    (htype : (descriptor (m.bytes buf) k).type = kInterfaceDescriptor)
    (hfits : (descriptor (m.bytes buf) k).HeaderFits)
    (hunsupported : ¬ (descriptor (m.bytes buf) k).Supported) :
    useInterface m obs loopFuel fuel dev pool
        (some (offset (m.bytes buf) k), readerAt m buf len k) =
      interfaceLoop m obs loopFuel fuel (readerAt m buf len k) dev pool := by
  have hnone : supportedKind (descriptor (m.bytes buf) k).interface = none := by
    rw [← Option.not_isSome_iff_eq_none]
    exact fun hsome => hunsupported ⟨htype, hsome⟩
  show (readInterface m buf (offset (m.bytes buf) k)).bind _ = _
  rw [readInterface_descriptor hbuf (hfits.2 htype), bind_ok, newClassDriver, hnone]
  rfl

variable (obs dev pool) in
/-- **Walking along.** After `k` steps the loop is still searching, now at descriptor `k` and
with fuel for as many steps less, by induction on `k`. -/
theorem interfaceLoop_skips (hbuf : buf ≠ nullptr) (hlen : len ≤ (m.bytes buf).length)
    (hpos : 0 < (m.bytes buf).length) {loopFuel fuel k : Nat} (hloopFuel : k < loopFuel)
    (hfuel : k < fuel) (hskips : ∀ j, j < k → Skips (m.bytes buf) len j) :
    ∃ l f, loopFuel ≤ l + k ∧ fuel ≤ f + 1 + k ∧
      interfaceLoop m obs loopFuel fuel (readerAt m buf len 0) dev pool =
        ((readerAt m buf len k).nextOf m kInterfaceDescriptor l).bind
          (useInterface m obs loopFuel f dev pool) := by
  induction k with
  | zero =>
      obtain ⟨f, rfl⟩ := Nat.exists_eq_succ_of_ne_zero (Nat.ne_of_gt hfuel)
      exact ⟨loopFuel, f, Nat.le_refl _, Nat.le_refl _, interfaceLoop_succ _ _ _⟩
  | succ k ih =>
      have hbefore : ∀ j, j < k → Skips (m.bytes buf) len j :=
        fun j hj => hskips j (Nat.lt_succ_of_lt hj)
      obtain ⟨l, f, hl, hf, hloop⟩ := ih (by omega) (by omega) hbefore
      have hskip := hskips k (Nat.lt_succ_self k)
      obtain ⟨l, rfl⟩ : ∃ l', l = l' + 1 := ⟨l - 1, by omega⟩
      have hinside := offset_lt_of_skips hlen hpos hbefore
      rw [nextOf_succ hbuf hinside hskip.inside, type_descriptor hbuf hskip.fits.1, bind_ok]
        at hloop
      by_cases htype : (descriptor (m.bytes buf) (k + 1)).type = kInterfaceDescriptor
      · obtain ⟨f, rfl⟩ : ∃ f', f = f' + 1 := ⟨f - 1, by omega⟩
        rw [if_pos htype, bind_ok, useInterface_unsupported hbuf htype hskip.fits
          hskip.unsupported, interfaceLoop_succ] at hloop
        exact ⟨loopFuel, f, by omega, by omega, hloop⟩
      · rw [if_neg htype] at hloop
        exact ⟨l, f, by omega, by omega, hloop⟩

/-- The search stops, if it does, within the received bytes: each step but the last moves it by
at least one byte. -/
theorem searched_le {b : List (BitVec 8)} {k : Nat} (hskips : ∀ j, j < k → Skips b len j)
    (hstop : ¬ Skips b len k) : k ≤ len := by
  have hmoves : ∀ j, j < k → bLengthAt b (offset b j) ≠ 0 := by
    intro j hj hstall
    have hstays := Cursor.position_stall hstall
    have hnext : offset b (k + 1) = offset b (j + 1) := by
      have hk := hstays (k + 1 - j)
      rw [show j + (k + 1 - j) = k + 1 by omega] at hk
      exact hk.trans (hstays 1).symm
    have hsame : descriptor b (k + 1) = descriptor b (j + 1) := by
      rw [descriptor, hnext, ← descriptor]
    have hskip := hskips j hj
    refine hstop ⟨?_, ?_, ?_⟩
    · rw [hnext]
      exact hskip.inside
    · rw [hsame]
      exact hskip.fits
    · rw [hsame]
      exact hskip.unsupported
  have hle : k ≤ offset b k := Cursor.le_position hmoves
  cases k with
  | zero => exact Nat.zero_le _
  | succ k =>
      have hinside := (hskips k (Nat.lt_succ_self k)).inside
      omega

/-- `Next<T>` in a walk that never stops either never ends itself or finds one more interface,
from which the walk goes on as endlessly. -/
theorem nextOf_endless (hbuf : buf ≠ nullptr) (hlen : len ≤ (m.bytes buf).length)
    (hpos : 0 < (m.bytes buf).length) (hskips : ∀ k, Skips (m.bytes buf) len k) (fuel : Nat) :
    ∀ k, (readerAt m buf len k).nextOf m kInterfaceDescriptor fuel = .error .endlessLoop ∨
      ∃ k', (descriptor (m.bytes buf) (k' + 1)).type = kInterfaceDescriptor ∧
        (readerAt m buf len k).nextOf m kInterfaceDescriptor fuel =
          .ok (some (offset (m.bytes buf) (k' + 1)), readerAt m buf len (k' + 1)) := by
  induction fuel with
  | zero => exact fun _ => Or.inl rfl
  | succ fuel ih =>
      intro k
      have hinside := offset_lt_of_skips hlen hpos fun j (_ : j < k) => hskips j
      rw [nextOf_succ hbuf hinside (hskips k).inside, type_descriptor hbuf (hskips k).fits.1,
        bind_ok]
      by_cases htype : (descriptor (m.bytes buf) (k + 1)).type = kInterfaceDescriptor
      · rw [if_pos htype]
        exact Or.inr ⟨k, htype, rfl⟩
      · rw [if_neg htype]
        exact ih (k + 1)

/-- A walk that never stops is an endless loop whatever the fuel, so no amount of fuel turns it
into a result. -/
theorem interfaceLoop_endless (hbuf : buf ≠ nullptr) (hlen : len ≤ (m.bytes buf).length)
    (hpos : 0 < (m.bytes buf).length) (hskips : ∀ k, Skips (m.bytes buf) len k)
    (loopFuel fuel : Nat) : ∀ k,
      interfaceLoop m obs loopFuel fuel (readerAt m buf len k) dev pool =
        .error .endlessLoop := by
  induction fuel with
  | zero => exact fun _ => rfl
  | succ fuel ih =>
      intro k
      rw [interfaceLoop_succ]
      rcases nextOf_endless hbuf hlen hpos hskips loopFuel k with hnext | ⟨k', htype, hnext⟩
      · rw [hnext]
        rfl
      · rw [hnext, bind_ok, useInterface_unsupported hbuf htype (hskips k').fits
          (hskips k').unsupported]
        exact ih (k' + 1)

variable (obs dev pool) in
/-- **The search** that stops ends as the first step that it cannot take says: at the end of the
bytes, behind them, or at a supported interface, with or without room for its class driver. -/
theorem search_end (hbuf : buf ≠ nullptr) (hlen : len ≤ (m.bytes buf).length)
    (hpos : 0 < (m.bytes buf).length) {block : Addr × Usb.Pool}
    (hblock : pool.allocMem hidSizeOf 0 0 = block) {fuel k : Nat} (hfuel : len < fuel)
    (hskips : ∀ j, j < k → Skips (m.bytes buf) len j) (hstop : ¬ Skips (m.bytes buf) len k) :
    SearchEnd m obs buf len fuel dev pool block k
      (interfaceLoop m obs fuel fuel (readerAt m buf len 0) dev pool) := by
  have hk := searched_le hskips hstop
  obtain ⟨l, f, hl, -, hloop⟩ := interfaceLoop_skips obs dev pool
    hbuf hlen hpos (by omega : k < fuel) (by omega : k < fuel) hskips
  obtain ⟨l, rfl⟩ : ∃ l', l = l' + 1 := ⟨l - 1, by omega⟩
  have hinside := offset_lt_of_skips hlen hpos hskips
  rcases Nat.lt_or_ge (offset (m.bytes buf) (k + 1)) len with hmore | hend
  · rw [nextOf_succ hbuf hinside hmore] at hloop
    by_cases hfits : (descriptor (m.bytes buf) (k + 1)).HeaderFits
    · -- What stops the search is an interface with a driver.
      have hsupported : (descriptor (m.bytes buf) (k + 1)).Supported := by
        by_contra hunsupported
        exact hstop ⟨hmore, hfits, hunsupported⟩
      obtain ⟨kind, hkind⟩ := Option.isSome_iff_exists.mp hsupported.2
      rw [type_descriptor hbuf hfits.1, bind_ok, if_pos hsupported.1, bind_ok] at hloop
      have huse : interfaceLoop m obs fuel fuel (readerAt m buf len 0) dev pool =
          (placeClassDriver dev kind (descriptor (m.bytes buf) (k + 1)).interface.interfaceNumber
            (obs.count kind) block).bind fun x =>
            if x.1 = nullptr then
              interfaceLoop m obs fuel f (readerAt m buf len (k + 1)) x.2.1 x.2.2
            else (endpointLoop m (descriptor (m.bytes buf) (k + 1)).interface.numEndpoints x.1
              fuel (readerAt m buf len (k + 1)) x.2.1.clearEndpoints).bind
                fun y => .ok (x.1, y.2, x.2.2) := by
        rw [hloop]
        show (readInterface m buf (offset (m.bytes buf) (k + 1))).bind _ = _
        rw [readInterface_descriptor hbuf (hfits.2 hsupported.1), bind_ok, newClassDriver, hkind,
          ← hblock]
      by_cases hpool : block.1 = nullptr
      · refine .noMemory hmore hfits hsupported hpool ?_
        rw [huse, placeClassDriver, if_pos hpool]
        rfl
      · refine .interface kind hmore hfits hsupported hkind hpool ?_
        rw [huse, placeClassDriver_of_ne dev kind _ _ hpool, bind_ok, if_neg hpool, withDriver]
    · refine .cutOff hmore hfits ?_
      rw [hloop]
      rcases Nat.lt_or_ge (descriptor (m.bytes buf) (k + 1)).length 2 with hshort | htwo
      · rw [byte_beyond hbuf (by omega)]
        rfl
      · -- The type is there, so this is an interface descriptor.
        have hshort : ¬ ((descriptor (m.bytes buf) (k + 1)).type = kInterfaceDescriptor →
            8 ≤ (descriptor (m.bytes buf) (k + 1)).length) := fun h => hfits ⟨htwo, h⟩
        push Not at hshort
        rw [type_descriptor hbuf htwo, bind_ok, if_pos hshort.1, bind_ok]
        show (readInterface m buf (offset (m.bytes buf) (k + 1))).bind _ = _
        rw [readInterface_beyond hbuf hshort.2]
        rfl
  · refine .nothing hend ?_
    rw [hloop, nextOf_end hbuf hinside hend]
    rfl

end Search

/-! ## Looking for the endpoints -/

section Endpoints

variable {m : Dma} {buf : Addr} {len i n : Nat} {b : List (BitVec 8)}

/-- Endpoints taken over in two parts. -/
theorem withEndpoints_append (classDriver : Addr) (confs confs' : List EndpointConfig) :
    ∀ dev : Device, withEndpoints dev classDriver (confs ++ confs') =
      withEndpoints (withEndpoints dev classDriver confs) classDriver confs' := by
  induction confs with
  | nil => exact fun _ => rfl
  | cons conf confs ih => exact fun _ => ih _

/-- Each endpoint that is recorded raises the number of endpoints of the device by one. -/
theorem numEpConfigs_withEndpoints (classDriver : Addr) (confs : List EndpointConfig) :
    ∀ dev : Device, (withEndpoints dev classDriver confs).numEpConfigs =
      dev.numEpConfigs + confs.length := by
  induction confs with
  | nil => exact fun _ => rfl
  | cons conf confs ih =>
      intro dev
      rw [withEndpoints, ih, List.length_cons]
      show dev.numEpConfigs + 1 + confs.length = _
      omega

/-- The descriptors seen after one more step. -/
theorem length_endpointsSeen_succ (b : List (BitVec 8)) (i j : Nat) :
    (endpointsSeen b i (j + 1)).length = (endpointsSeen b i j).length +
      if (descriptor b (i + j + 1)).type = kEndpointDescriptor then 1 else 0 := by
  rw [endpointsSeen, List.length_append]
  split <;> rfl

/-- A walk that has not stopped has seen 16 endpoints at most, which is the size of the table,
and no more than were announced. -/
theorem length_endpointsSeen_le {j : Nat} (htakes : ∀ t, t < j → Takes b len i n t) :
    (endpointsSeen b i j).length ≤ 16 ∧ (endpointsSeen b i j).length ≤ n := by
  induction j with
  | zero => exact ⟨Nat.zero_le _, Nat.zero_le _⟩
  | succ j ih =>
      obtain ⟨hmax, hle⟩ := ih fun t ht => htakes t (Nat.lt_succ_of_lt ht)
      have htake := htakes j (Nat.lt_succ_self j)
      have hmore := htake.more
      rw [length_endpointsSeen_succ]
      by_cases htype : (descriptor b (i + j + 1)).type = kEndpointDescriptor
      · have hroom := htake.room htype
        rw [if_pos htype]
        omega
      · rw [if_neg htype]
        omega

/-- The descriptors behind a length byte 0 are all the same. -/
theorem descriptor_stall {k : Nat} (hstall : bLengthAt b (offset b k) = 0) (t : Nat) :
    offset b (k + t) = offset b k ∧ descriptor b (k + t) = descriptor b k := by
  have hoffset : offset b (k + t) = offset b k := Cursor.position_stall hstall t
  exact ⟨hoffset, by rw [descriptor, hoffset, ← descriptor]⟩

/-- Behind a stalled descriptor of another type no more endpoints are seen, however often the
loop goes round. -/
theorem endpointsSeen_stall {j : Nat} (hstall : bLengthAt b (offset b (i + j)) = 0)
    (htype : (descriptor b (i + j)).type ≠ kEndpointDescriptor) (t : Nat) :
    endpointsSeen b i (j + t) = endpointsSeen b i j := by
  induction t with
  | zero => rfl
  | succ t ih =>
      have hsame := (descriptor_stall hstall (t + 1)).2
      rw [← Nat.add_assoc] at hsame
      have hindex : i + (j + t) + 1 = i + j + t + 1 := by omega
      calc endpointsSeen b i (j + t + 1)
          = endpointsSeen b i (j + t) ++
              if (descriptor b (i + (j + t) + 1)).type = kEndpointDescriptor then
                [descriptor b (i + (j + t) + 1)] else [] := rfl
        _ = endpointsSeen b i j := by rw [hindex, hsame, if_neg htype, List.append_nil, ih]

/-- At a stalled endpoint descriptor every step sees the same endpoint once more, so their
number grows with the steps. -/
theorem length_endpointsSeen_stall {j : Nat} (hstall : bLengthAt b (offset b (i + j)) = 0)
    (htype : (descriptor b (i + j)).type = kEndpointDescriptor) (t : Nat) :
    (endpointsSeen b i (j + t)).length = (endpointsSeen b i j).length + t := by
  induction t with
  | zero => rfl
  | succ t ih =>
      have hsame := (descriptor_stall hstall (t + 1)).2
      rw [← Nat.add_assoc] at hsame
      have hsucc := length_endpointsSeen_succ b i (j + t)
      rw [show i + (j + t) + 1 = i + j + t + 1 by omega, hsame, if_pos htype, ih] at hsucc
      exact hsucc

/-- A stalled descriptor of another type is taken again and again as long as endpoints are
missing, so that loop never ends. -/
theorem takes_stall {j : Nat} (hstall : bLengthAt b (offset b (i + j)) = 0)
    (htype : (descriptor b (i + j)).type ≠ kEndpointDescriptor)
    (hinside : offset b (i + j) < len) (hfits : (descriptor b (i + j)).EndpointFits)
    (hmore : (endpointsSeen b i j).length < n) (t : Nat) : Takes b len i n (j + t) := by
  have hindex : i + (j + t) + 1 = i + j + (t + 1) := by omega
  obtain ⟨hoffset, hsame⟩ := descriptor_stall hstall (t + 1)
  constructor
  case more =>
    rw [endpointsSeen_stall hstall htype]
    exact hmore
  case inside =>
    rw [hindex, hoffset]
    exact hinside
  case fits =>
    rw [hindex, hsame]
    exact hfits
  case room =>
    rw [hindex, hsame]
    exact fun h => absurd h htype

/-- The descriptor the walk stands at, behind the interface. -/
theorem takes_last {j : Nat} (htakes : ∀ t, t < j → Takes b len i n t) (hj : 0 < j) :
    offset b (i + j) < len ∧ (descriptor b (i + j)).EndpointFits := by
  obtain ⟨j, rfl⟩ := Nat.exists_eq_succ_of_ne_zero (Nat.ne_of_gt hj)
  have htake := htakes j (Nat.lt_succ_self j)
  exact ⟨htake.inside, htake.fits⟩

/-- The walk over the endpoints stops, if it does, after no more steps than there are bytes and
entries of the table. -/
theorem taken_le {j : Nat} (htakes : ∀ t, t < j → Takes b len i n t)
    (hstop : ¬ Takes b len i n j) : j ≤ len + 16 := by
  have hmeasure : ∀ t, t ≤ j → t ≤ offset b (i + t) + (endpointsSeen b i t).length := by
    intro t
    induction t with
    | zero => exact fun _ => Nat.zero_le _
    | succ t ih =>
        intro ht
        have hbefore := ih (by omega)
        have htake := htakes t (by omega)
        have hseen := length_endpointsSeen_succ b i t
        have hnext : offset b (i + t + 1) = offset b (i + t) + bLengthAt b (offset b (i + t)) := rfl
        show t + 1 ≤ offset b (i + t + 1) + _
        by_cases hstall : bLengthAt b (offset b (i + t)) = 0
        · -- The walk stands still, so it must be at an endpoint descriptor.
          obtain ⟨hoffset, hsame⟩ := descriptor_stall hstall 1
          by_cases htype : (descriptor b (i + t + 1)).type = kEndpointDescriptor
          · rw [if_pos htype] at hseen
            omega
          · refine absurd ?_ hstop
            rw [hsame] at htype
            have hforever := takes_stall hstall htype (hoffset ▸ htake.inside)
              (hsame ▸ htake.fits) htake.more (j - t)
            rwa [show t + (j - t) = j by omega] at hforever
        · omega
  rcases Nat.eq_zero_or_pos j with rfl | hj
  · exact Nat.zero_le _
  · have hend := hmeasure j (Nat.le_refl j)
    have hmax := (length_endpointsSeen_le htakes).1
    have hinside := (takes_last htakes hj).1
    omega

/-- How the search for endpoints ends that cannot step over the descriptor behind
the `j` next ones. -/
inductive EndpointsEnd (m : Dma) (buf : Addr) (len i n : Nat) (classDriver : Addr)
    (dev : Device) (j : Nat) (result : Except Fault (Reader × Device)) : Prop
  | done (hdone : n ≤ (endpointsSeen (m.bytes buf) i j).length)
      (hresult : result = .ok (readerAt m buf len (i + j), withEndpoints dev classDriver
        ((endpointsSeen (m.bytes buf) i j).map Descriptor.epConfig)))
  | ended (hmore : (endpointsSeen (m.bytes buf) i j).length < n)
      (hend : len ≤ offset (m.bytes buf) (i + j + 1)) (hresult : result = .error .endOfData)
  | cutOff (hmore : (endpointsSeen (m.bytes buf) i j).length < n)
      (hinside : offset (m.bytes buf) (i + j + 1) < len)
      (hcut : ¬ (descriptor (m.bytes buf) (i + j + 1)).EndpointFits)
      (hresult : result = .error .outOfBounds)
  | full (hmore : (endpointsSeen (m.bytes buf) i j).length < n)
      (hinside : offset (m.bytes buf) (i + j + 1) < len)
      (hfits : (descriptor (m.bytes buf) (i + j + 1)).EndpointFits)
      (htype : (descriptor (m.bytes buf) (i + j + 1)).type = kEndpointDescriptor)
      (hfull : 16 ≤ (endpointsSeen (m.bytes buf) i j).length)
      (hresult : result = .error .tableOverflow)

/-- One pass of the endpoint loop that finds another descriptor. -/
theorem endpointLoop_succ (hbuf : buf ≠ nullptr) {numEndpoints : BitVec 8} {classDriver : Addr}
    {fuel k : Nat} {dev : Device} (hmore : dev.numEpConfigs < numEndpoints.toNat)
    (hinside : offset (m.bytes buf) k < (m.bytes buf).length)
    (hnext : offset (m.bytes buf) (k + 1) < len) :
    endpointLoop m numEndpoints classDriver (fuel + 1) (readerAt m buf len k) dev =
      (m.byte buf (offset (m.bytes buf) (k + 1) + 1)).bind fun type =>
        if type = kEndpointDescriptor then
          (readEPConfig m buf (offset (m.bytes buf) (k + 1))).bind fun conf =>
            (dev.addEndpoint conf classDriver).bind fun dev =>
              endpointLoop m numEndpoints classDriver fuel (readerAt m buf len (k + 1)) dev
        else if type = kHidDescriptor then
          (logHid m buf (offset (m.bytes buf) (k + 1))).bind fun _ =>
            endpointLoop m numEndpoints classDriver fuel (readerAt m buf len (k + 1)) dev
        else endpointLoop m numEndpoints classDriver fuel (readerAt m buf len (k + 1)) dev := by
  rw [endpointLoop, if_pos hmore]
  show ((readerAt m buf len k).next m).bind _ = _
  rw [next_readerAt hbuf hinside, if_pos hnext]
  rfl

/-- One pass of the endpoint loop that finds the end. -/
theorem endpointLoop_ended (hbuf : buf ≠ nullptr) {numEndpoints : BitVec 8} {classDriver : Addr}
    {fuel k : Nat} {dev : Device} (hmore : dev.numEpConfigs < numEndpoints.toNat)
    (hinside : offset (m.bytes buf) k < (m.bytes buf).length)
    (hend : len ≤ offset (m.bytes buf) (k + 1)) :
    endpointLoop m numEndpoints classDriver (fuel + 1) (readerAt m buf len k) dev =
      .error .endOfData := by
  rw [endpointLoop, if_pos hmore]
  show ((readerAt m buf len k).next m).bind _ = _
  rw [next_readerAt hbuf hinside, if_neg (Nat.not_lt.mpr hend)]
  rfl

/-- The descriptor the walk stands at starts inside the buffer. -/
theorem offset_lt_of_takes (hlen : len ≤ (m.bytes buf).length)
    (hfirst : offset (m.bytes buf) i < len) {j : Nat}
    (htakes : ∀ t, t < j → Takes (m.bytes buf) len i n t) :
    offset (m.bytes buf) (i + j) < (m.bytes buf).length := by
  rcases Nat.eq_zero_or_pos j with rfl | hj
  · exact Nat.lt_of_lt_of_le hfirst hlen
  · exact Nat.lt_of_lt_of_le (takes_last htakes hj).1 hlen

/-- **Walking along.**  After `j` steps the loop stands at descriptor `i + j` and
has taken over the endpoints seen so far. -/
theorem endpointLoop_takes (hbuf : buf ≠ nullptr) (hlen : len ≤ (m.bytes buf).length)
    (hfirst : offset (m.bytes buf) i < len) {numEndpoints : BitVec 8} (classDriver : Addr)
    {dev : Device} (hcount : dev.numEpConfigs = 0) {j : Nat}
    (htakes : ∀ t, t < j → Takes (m.bytes buf) len i numEndpoints.toNat t) :
    ∀ fuel, endpointLoop m numEndpoints classDriver (fuel + j) (readerAt m buf len i) dev =
      endpointLoop m numEndpoints classDriver fuel (readerAt m buf len (i + j))
        (withEndpoints dev classDriver
          ((endpointsSeen (m.bytes buf) i j).map Descriptor.epConfig)) := by
  induction j with
  | zero => exact fun _ => rfl
  | succ j ih =>
      intro fuel
      have hbefore : ∀ t, t < j → Takes (m.bytes buf) len i numEndpoints.toNat t :=
        fun t ht => htakes t (Nat.lt_succ_of_lt ht)
      have htake := htakes j (Nat.lt_succ_self j)
      have hnum := numEpConfigs_withEndpoints classDriver
        ((endpointsSeen (m.bytes buf) i j).map Descriptor.epConfig) dev
      rw [hcount, Nat.zero_add, List.length_map] at hnum
      rw [show fuel + (j + 1) = fuel + 1 + j by omega, ih hbefore,
        endpointLoop_succ hbuf (by rw [hnum]; exact htake.more)
          (offset_lt_of_takes hlen hfirst hbefore) htake.inside,
        type_descriptor hbuf htake.fits.1, bind_ok]
      rw [endpointsSeen]
      by_cases htype : (descriptor (m.bytes buf) (i + j + 1)).type = kEndpointDescriptor
      · rw [if_pos htype, if_pos htype, readEPConfig_descriptor hbuf (htake.fits.2.1 htype),
          bind_ok, addEndpoint_eq (by rw [hnum]; exact htake.room htype) (epConfig_number _),
          bind_ok, List.map_append, withEndpoints_append]
        rfl
      · rw [if_neg htype, if_neg htype, List.append_nil]
        by_cases hhid : (descriptor (m.bytes buf) (i + j + 1)).type = kHidDescriptor
        · rw [if_pos hhid, logHid_descriptor hbuf (htake.fits.2.2 hhid), bind_ok]
          rfl
        · rw [if_neg hhid]
          rfl

/-- A search for endpoints that never stops is an endless loop. -/
theorem endpointLoop_endless (hbuf : buf ≠ nullptr) (hlen : len ≤ (m.bytes buf).length)
    (hfirst : offset (m.bytes buf) i < len) {numEndpoints : BitVec 8} (classDriver : Addr)
    {dev : Device} (hcount : dev.numEpConfigs = 0)
    (htakes : ∀ j, Takes (m.bytes buf) len i numEndpoints.toNat j) (fuel : Nat) :
    endpointLoop m numEndpoints classDriver fuel (readerAt m buf len i) dev =
      .error .endlessLoop := by
  have hloop := endpointLoop_takes hbuf hlen hfirst classDriver hcount
    (fun t (_ : t < fuel) => htakes t) 0
  rw [Nat.zero_add] at hloop
  exact hloop

/-- **The search for endpoints** that stops ends as the first step that it cannot take says:
with all endpoints seen, at the end of the bytes, behind them, or with the table full. -/
theorem endpoints_end (hbuf : buf ≠ nullptr) (hlen : len ≤ (m.bytes buf).length)
    (hfirst : offset (m.bytes buf) i < len) {numEndpoints : BitVec 8} (classDriver : Addr)
    {dev : Device} (hcount : dev.numEpConfigs = 0) {fuel j : Nat} (hfuel : len + 16 < fuel)
    (htakes : ∀ t, t < j → Takes (m.bytes buf) len i numEndpoints.toNat t)
    (hstop : ¬ Takes (m.bytes buf) len i numEndpoints.toNat j) :
    EndpointsEnd m buf len i numEndpoints.toNat classDriver dev j
      (endpointLoop m numEndpoints classDriver fuel (readerAt m buf len i) dev) := by
  have hj := taken_le htakes hstop
  have hloop := endpointLoop_takes hbuf hlen hfirst classDriver hcount htakes
    (fuel - j - 1 + 1)
  rw [show fuel - j - 1 + 1 + j = fuel by omega] at hloop
  have hnum := numEpConfigs_withEndpoints classDriver
    ((endpointsSeen (m.bytes buf) i j).map Descriptor.epConfig) dev
  rw [hcount, Nat.zero_add, List.length_map] at hnum
  have hinside := offset_lt_of_takes hlen hfirst htakes
  rcases Nat.lt_or_ge (endpointsSeen (m.bytes buf) i j).length numEndpoints.toNat with
    hmore | hdone
  · rw [← hnum] at hmore
    rcases Nat.lt_or_ge (offset (m.bytes buf) (i + j + 1)) len with hnext | hend
    · rw [endpointLoop_succ hbuf hmore hinside hnext] at hloop
      rw [hnum] at hmore
      by_cases hfits : (descriptor (m.bytes buf) (i + j + 1)).EndpointFits
      · -- What stops the search is a full table.
        have hroom : ¬ ((descriptor (m.bytes buf) (i + j + 1)).type = kEndpointDescriptor →
            (endpointsSeen (m.bytes buf) i j).length < 16) :=
          fun hroom => hstop ⟨hmore, hnext, hfits, hroom⟩
        push Not at hroom
        obtain ⟨htype, hfull⟩ := hroom
        refine .full hmore hnext hfits htype hfull ?_
        rw [hloop, type_descriptor hbuf hfits.1, bind_ok, if_pos htype,
          readEPConfig_descriptor hbuf (hfits.2.1 htype), bind_ok, addEndpoint,
          dif_neg fun hfree => by omega]
        rfl
      · refine .cutOff hmore hnext hfits ?_
        rw [hloop]
        rcases Nat.lt_or_ge (descriptor (m.bytes buf) (i + j + 1)).length 2 with hshort | htwo
        · rw [byte_beyond hbuf (by omega)]
          rfl
        · rw [type_descriptor hbuf htwo, bind_ok]
          by_cases htype : (descriptor (m.bytes buf) (i + j + 1)).type = kEndpointDescriptor
          · rw [if_pos htype, readEPConfig_beyond hbuf]
            · rfl
            · by_contra hlong
              refine hfits ⟨htwo, fun _ => Nat.not_lt.mp hlong, fun hhid => ?_⟩
              rw [htype] at hhid
              exact absurd hhid (by decide)
          · rw [if_neg htype]
            by_cases hhid : (descriptor (m.bytes buf) (i + j + 1)).type = kHidDescriptor
            · rw [if_pos hhid, logHid_beyond hbuf]
              · rfl
              · by_contra hlong
                exact hfits ⟨htwo, fun h => absurd h htype, fun _ => Nat.not_lt.mp hlong⟩
            · exact absurd ⟨htwo, fun h => absurd h htype, fun h => absurd h hhid⟩ hfits
    · rw [endpointLoop_ended hbuf hmore hinside hend] at hloop
      rw [hnum] at hmore
      exact .ended hmore hend hloop
  · rw [endpointLoop, if_neg (by rw [hnum]; omega)] at hloop
    exact .done hdone hloop

end Endpoints

end Mikanos.Xhci.Device
