import RobotDdz.Lib.Words

/-!
# Reading frames off a connection

`SerializeSendMsg` writes a frame as its length, its message id and its
payload. `OnReadEvent` reads frames off the buffer while it has bytes. It keeps
nothing from one event to the next: a header that is cut short is read and
dropped, and a payload that is cut short is handed on with whatever memory
follows the bytes received.

`deliver_eq_iff`: the messages handed on over all events are the frames written
exactly when every event brings a whole number of frames and no length field is
`INT_MAX`. The converse counts bytes. What `OnReadEvent` takes off the buffer
is the frames it hands on and the bytes it drops, so nothing is dropped when
all the frames come through.

Mirroring notes vs `EventProcess.cpp` and `RobotBase.cpp`:
- The length and the id are written by `htonl` and read by `ntohl`, hence the
  big-endian `toBytes`, and `iMsgLen` is the length as an `int`.
- `dataLength` is taken after the payload was read. It is the condition of the
  loop, so a header cut short is only met at the end of an event.
- The payload is given to the handler as a string of `iMsgLen` bytes, even if
  fewer were there.
-/

namespace RobotDdz.Net

open Words

/-- `INT_MAX`, the largest number of bytes `string::length` cast to `int` can
be. -/
abbrev intMax : Nat := 2147483647

/-- A message as it is sent. -/
structure Frame where
  msgId : BitVec 32
  msg : List Byte

/-- A message as it is handed to `RobotProcess`; `none` is a byte that was not
read. -/
structure Message where
  msgId : BitVec 32
  msg : List (Option Byte)

/-- `SerializeSendMsg`, after the protobuf part. -/
def Frame.serialize (f : Frame) : List Byte :=
  toBytes (BitVec.ofNat 32 f.msg.length) ++ toBytes f.msgId ++ f.msg

/-- A frame as it was sent. -/
def Frame.received (f : Frame) : Message := ⟨f.msgId, f.msg.map some⟩

/-- What a protobuf message can be: not empty, and with a length that is an
`int`. -/
def Frame.Sendable (f : Frame) : Prop := 1 ≤ f.msg.length ∧ f.msg.length ≤ intMax

/-- `GetReadBufferData`: the bytes read and the buffer after it. -/
def readBuffer (n : Nat) (buffer : List Byte) : List Byte × List Byte :=
  (buffer.take n, buffer.drop n)

/-- The payload in a `new char[n]` after a read of what there was. -/
def payload (n : Nat) (bytes : List Byte) : List (Option Byte) :=
  bytes.map some ++ List.replicate (n - bytes.length) none

/-- The loop of `OnReadEvent`: the messages handed on and the buffer it leaves;
`none` when `new char[iMsgLen + 1]` fails and the program ends. No handler
closes the connection. Every round reads at least four bytes, so the length of
the buffer is fuel enough. -/
def readLoop : (fuel : Nat) → List Byte → List Message × Option (List Byte)
  | 0, buffer => ([], some buffer)
  | fuel + 1, buffer =>
    if buffer.length = 0 then ([], some buffer)
    else
      let (msgLen, buffer) := readBuffer 4 buffer
      if msgLen.length ≠ 4 then ([], some buffer)
      else
        let iMsgLen := (ofBytes msgLen).toInt
        if iMsgLen = 0 then ([], some buffer)
        else
          let (msgId, buffer) := readBuffer 4 buffer
          if msgId.length ≠ 4 then ([], some buffer)
          else if iMsgLen < 0 ∨ (intMax : Int) ≤ iMsgLen then ([], none)
          else
            let (msg, buffer) := readBuffer iMsgLen.toNat buffer
            let r := readLoop fuel buffer
            (⟨ofBytes msgId, payload iMsgLen.toNat msg⟩ :: r.1, r.2)

/-- `OnReadEvent` on the bytes in the buffer. -/
def onReadEvent (buffer : List Byte) : List Message × Option (List Byte) :=
  readLoop buffer.length buffer

/-- The messages handed on over read events that bring these bytes, from a
buffer that still has `buffer`; `none` is a program that has ended. -/
def deliver : Option (List Byte) → List (List Byte) → List Message
  | none, _ => []
  | _, [] => []
  | some buffer, chunk :: chunks =>
    let r := onReadEvent (buffer ++ chunk)
    r.1 ++ deliver r.2 chunks

/-- The bytes of some frames. -/
def wire (fs : List Frame) : List Byte := fs.flatMap Frame.serialize

/-! ## The frames of one event -/

/-- A frame is eight bytes longer than its payload. -/
theorem length_serialize (f : Frame) : f.serialize.length = 8 + f.msg.length := by
  simp only [Frame.serialize, List.length_append, length_toBytes]

/-- The length field of a frame, read back. -/
theorem toInt_length {n : Nat} (h : n ≤ intMax) : (BitVec.ofNat 32 n).toInt = (n : Int) := by
  rw [BitVec.toInt_ofNat']
  exact Int.bmod_eq_of_le (by omega) (by simp only [intMax] at h; omega)

/-- A round on a whole frame hands it on, with its id and its payload, and goes
on with what follows it. The length is taken from the first four bytes, and a
payload of the largest length would be refused. -/
theorem readLoop_serialize {f : Frame} (h1 : 1 ≤ f.msg.length) (h2 : f.msg.length < intMax)
    (fuel : Nat) (rest : List Byte) :
    readLoop (fuel + 1) (f.serialize ++ rest)
      = (f.received :: (readLoop fuel rest).1, (readLoop fuel rest).2) := by
  have hlen : (f.serialize ++ rest).length ≠ 0 := by
    rw [List.length_append, length_serialize]
    omega
  have hhead : readBuffer 4 (f.serialize ++ rest)
      = (toBytes (BitVec.ofNat 32 f.msg.length), toBytes f.msgId ++ f.msg ++ rest) := by
    simp [readBuffer, Frame.serialize, List.append_assoc, List.take_append, List.drop_append]
  have hid : readBuffer 4 (toBytes f.msgId ++ f.msg ++ rest)
      = (toBytes f.msgId, f.msg ++ rest) := by
    simp [readBuffer, List.append_assoc, List.take_append, List.drop_append]
  have hmsg : readBuffer f.msg.length (f.msg ++ rest) = (f.msg, rest) := by
    simp [readBuffer]
  have hint := toInt_length (Nat.le_of_lt h2)
  have hne : ¬(f.msg.length : Int) = 0 := by omega
  have hrange : ¬((f.msg.length : Int) < 0 ∨ (intMax : Int) ≤ f.msg.length) := by omega
  rw [readLoop, if_neg hlen, hhead]
  dsimp only
  rw [if_neg (by simp), ofBytes_toBytes, hint, if_neg hne, hid]
  dsimp only
  rw [if_neg (by simp), if_neg hrange, Int.toNat_natCast, hmsg, ofBytes_toBytes]
  simp [Frame.received, payload]

/-- The loop on whole frames hands on those frames and leaves the buffer empty. -/
theorem readLoop_wire (fs : List Frame)
    (h : ∀ f ∈ fs, 1 ≤ f.msg.length ∧ f.msg.length < intMax) :
    ∀ fuel, fs.length ≤ fuel → readLoop fuel (wire fs) = (fs.map Frame.received, some []) := by
  induction fs with
  | nil =>
    intro fuel _
    cases fuel with
    | zero => rfl
    | succ fuel => rfl
  | cons f fs ih =>
    intro fuel hfuel
    obtain ⟨h1, h2⟩ := h f List.mem_cons_self
    obtain ⟨fuel, rfl⟩ : ∃ k, fuel = k + 1 := ⟨fuel - 1, by rw [List.length_cons] at hfuel; omega⟩
    have hrest := ih (fun g hg => h g (List.mem_cons_of_mem _ hg)) fuel
      (by rw [List.length_cons] at hfuel; omega)
    show readLoop (fuel + 1) (f.serialize ++ wire fs) = _
    rw [readLoop_serialize h1 h2, hrest]
    rfl

/-- Every frame takes a byte at least, so the loop has fuel enough. -/
theorem length_le_wire (fs : List Frame) : fs.length ≤ (wire fs).length := by
  induction fs with
  | nil => exact Nat.le_refl _
  | cons f fs ih =>
    show fs.length + 1 ≤ (f.serialize ++ wire fs).length
    rw [List.length_append, length_serialize]
    omega

/-- Whole frames of ordinary length come through as they are, with nothing left
in the buffer. -/
theorem onReadEvent_wire {fs : List Frame}
    (h : ∀ f ∈ fs, 1 ≤ f.msg.length ∧ f.msg.length < intMax) :
    onReadEvent (wire fs) = (fs.map Frame.received, some []) :=
  readLoop_wire fs h _ (length_le_wire fs)

/-! ## Counting bytes -/

/-- The bytes of two groups of frames, one after the other. -/
theorem wire_append (fs gs : List Frame) : wire (fs ++ gs) = wire fs ++ wire gs :=
  List.flatMap_append

/-- A payload handed on without a missing byte is the bytes read. -/
theorem payload_eq_map {n : Nat} {bytes msg : List Byte} (hle : bytes.length ≤ n)
    (h : payload n bytes = msg.map some) : bytes.length = n ∧ msg = bytes := by
  have hshort : n - bytes.length = 0 := by
    by_contra hne
    have hmem : (none : Option Byte) ∈ payload n bytes :=
      List.mem_append_right _ (List.mem_replicate.mpr ⟨hne, rfl⟩)
    rw [h, List.mem_map] at hmem
    obtain ⟨b, -, hb⟩ := hmem
    exact absurd hb (by simp)
  refine ⟨by omega, ?_⟩
  rw [payload, hshort, List.replicate_zero, List.append_nil] at h
  exact ((List.map_inj_right fun a b hab => Option.some.inj hab).mp h).symm

/-- A positive length field is the length it says. -/
theorem ofNat_toInt {w : BitVec 32} (h : 0 ≤ w.toInt) : BitVec.ofNat 32 w.toInt.toNat = w := by
  have hlt := w.isLt
  apply BitVec.eq_of_toNat_eq
  rw [BitVec.toNat_ofNat]
  rw [BitVec.toInt_eq_toNat_cond] at h ⊢
  split at h
  next hc =>
    rw [if_pos hc, Int.toNat_natCast]
    exact Nat.mod_eq_of_lt hlt
  next hc => omega

/-- What a round of the loop does: it ends the loop after dropping some bytes,
or it hands on the message after a header. -/
theorem readLoop_cases (fuel : Nat) {buffer : List Byte} (h0 : buffer.length ≠ 0) :
    (∃ dropped left, dropped ≠ [] ∧ buffer = dropped ++ Option.getD left [] ∧
      readLoop (fuel + 1) buffer = ([], left)) ∨
    (∃ (len id : BitVec 32) (rest : List Byte), 0 < len.toInt ∧ len.toInt < intMax ∧
      buffer = toBytes len ++ toBytes id ++ rest ∧
      readLoop (fuel + 1) buffer
        = (⟨id, payload len.toInt.toNat (rest.take len.toInt.toNat)⟩
            :: (readLoop fuel (rest.drop len.toInt.toNat)).1,
          (readLoop fuel (rest.drop len.toInt.toNat)).2)) := by
  have htake : buffer.take 4 ≠ [] := by
    intro hn
    have := congrArg List.length hn
    rw [List.length_take, List.length_nil] at this
    omega
  have hcut := (List.take_append_drop 4 buffer).symm
  have hcut' : buffer = (buffer.take 4 ++ (buffer.drop 4).take 4) ++ (buffer.drop 4).drop 4 := by
    rw [List.append_assoc, List.take_append_drop, List.take_append_drop]
  rw [readLoop, if_neg h0]
  dsimp only [readBuffer]
  -- the checks of `OnReadEvent` in their order: length field, zero length, id, range
  by_cases h4 : (buffer.take 4).length ≠ 4
  · rw [if_pos h4]
    exact Or.inl ⟨_, some (buffer.drop 4), htake, hcut, rfl⟩
  rw [if_neg h4]
  by_cases hz : (ofBytes (buffer.take 4)).toInt = 0
  · rw [if_pos hz]
    exact Or.inl ⟨_, some (buffer.drop 4), htake, hcut, rfl⟩
  rw [if_neg hz]
  by_cases hid : ((buffer.drop 4).take 4).length ≠ 4
  · rw [if_pos hid]
    exact Or.inl ⟨_, some ((buffer.drop 4).drop 4), List.append_ne_nil_of_left_ne_nil htake _,
      hcut', rfl⟩
  rw [if_neg hid]
  by_cases hr : (ofBytes (buffer.take 4)).toInt < 0
      ∨ (intMax : Int) ≤ (ofBytes (buffer.take 4)).toInt
  · -- the program ends, and the bytes behind the header go with it
    rw [if_pos hr]
    refine Or.inl ⟨buffer, none, ?_, (List.append_nil _).symm, rfl⟩
    intro hn
    exact h0 (by rw [hn]; rfl)
  · rw [if_neg hr]
    refine Or.inr ⟨ofBytes (buffer.take 4), ofBytes ((buffer.drop 4).take 4),
      (buffer.drop 4).drop 4, by omega, by omega, ?_, rfl⟩
    rw [toBytes_ofBytes (not_not.mp h4), toBytes_ofBytes (not_not.mp hid)]
    exact hcut'

/-- What a run of the loop does with the buffer: frames handed on, bytes
dropped, and the buffer left over, empty unless bytes were dropped. -/
structure Accounted (buffer : List Byte) (fs : List Frame) (left : Option (List Byte)) : Prop where
  bytes : ∃ dropped, buffer = wire fs ++ dropped ++ left.getD [] ∧ (dropped = [] → left = some [])
  small : ∀ f ∈ fs, f.msg.length < intMax

/-- What the loop takes off the buffer, when what it hands on are frames that
were written: their bytes, and those it has dropped. The induction is on the
fuel. -/
theorem readLoop_accounted : ∀ (fuel : Nat) (buffer : List Byte) (fs : List Frame),
    buffer.length ≤ fuel → (readLoop fuel buffer).1 = fs.map Frame.received →
    Accounted buffer fs (readLoop fuel buffer).2 := by
  -- where the loop ends it hands on nothing
  have hnone : ∀ {fs : List Frame}, [] = fs.map Frame.received → fs = [] :=
    fun h => List.map_eq_nil_iff.mp h.symm
  have hempty : Accounted [] [] (some []) :=
    ⟨⟨[], rfl, fun _ => rfl⟩, fun _ hf => absurd hf List.not_mem_nil⟩
  intro fuel
  induction fuel with
  | zero =>
    intro buffer fs hfuel h
    rw [hnone h, List.length_eq_zero_iff.mp (Nat.le_zero.mp hfuel)]
    exact hempty
  | succ fuel ih =>
    intro buffer fs hfuel h
    by_cases h0 : buffer.length = 0
    · rw [readLoop, if_pos h0] at h ⊢
      rw [hnone h, List.length_eq_zero_iff.mp h0]
      exact hempty
    · rcases readLoop_cases fuel h0 with ⟨dropped, left, hne, hbuf, heq⟩ |
        ⟨len, id, rest, hpos, hlt, hbuf, heq⟩
      · rw [heq] at h ⊢
        rw [hnone h]
        exact ⟨⟨dropped, hbuf, fun hd => absurd hd hne⟩, fun _ hf => absurd hf List.not_mem_nil⟩
      · rw [heq] at h ⊢
        obtain ⟨f, gs, rfl, hf, hgs⟩ := List.map_eq_cons_iff.mp h.symm
        -- the payload has no missing byte, so the whole frame was in the buffer
        have hid : f.msgId = id := congrArg Message.msgId hf
        have hmsg : payload len.toInt.toNat (rest.take len.toInt.toNat) = f.msg.map some :=
          (congrArg Message.msg hf).symm
        obtain ⟨hfull, hbytes⟩ := payload_eq_map (List.length_take_le _ _) hmsg
        rw [← hbytes] at hfull
        have hframe : f.serialize ++ rest.drop len.toInt.toNat = buffer := by
          rw [Frame.serialize, hfull, ofNat_toInt (by omega), hid, hbuf, hbytes,
            List.append_assoc, List.take_append_drop]
        have hshort : (rest.drop len.toInt.toNat).length ≤ fuel := by
          have := congrArg List.length hframe
          rw [List.length_append, length_serialize] at this
          omega
        obtain ⟨⟨dropped, hrest, hleft⟩, hsmall⟩ := ih _ gs hshort hgs.symm
        refine ⟨⟨dropped, ?_, hleft⟩, fun g hg => ?_⟩
        · show buffer = f.serialize ++ wire gs ++ dropped ++ _
          rw [List.append_assoc, List.append_assoc, ← List.append_assoc (wire gs), ← hrest, hframe]
        · rcases List.mem_cons.mp hg with rfl | hg
          · omega
          · exact hsmall g hg

/-- Every event brings a whole number of frames. -/
def Aligned (fs : List Frame) (chunks : List (List Byte)) : Prop :=
  ∃ groups : List (List Frame), groups.flatten = fs ∧ chunks = groups.map wire

theorem length_wire_append (fs gs : List Frame) :
    (wire (fs ++ gs)).length = (wire fs).length + (wire gs).length := by
  rw [wire_append, List.length_append]

/-- Frames that come through: their bytes were in the buffer and the events,
and when there were no others each event brought whole frames. -/
theorem deliver_accounted : ∀ (chunks : List (List Byte)) (buffer : List Byte) (fs : List Frame),
    deliver (some buffer) chunks = fs.map Frame.received →
    (wire fs).length ≤ buffer.length + chunks.flatten.length ∧
    ((wire fs).length = buffer.length + chunks.flatten.length → buffer = [] → Aligned fs chunks) ∧
    ∀ f ∈ fs, f.msg.length < intMax := by
  intro chunks
  induction chunks with
  | nil =>
    intro buffer fs h
    have hfs : fs = [] := List.map_eq_nil_iff.mp h.symm
    subst hfs
    exact ⟨Nat.zero_le _, fun _ _ => ⟨[], rfl, rfl⟩, fun _ hf => absurd hf List.not_mem_nil⟩
  | cons chunk chunks ih =>
    intro buffer fs h
    obtain ⟨fs₁, fs₂, rfl, h₁, h₂⟩ := List.map_eq_append_iff.mp h.symm
    have hacc := readLoop_accounted _ (buffer ++ chunk) fs₁ (Nat.le_refl _) h₁.symm
    change _ = deliver (readLoop (buffer ++ chunk).length (buffer ++ chunk)).2 chunks at h₂
    generalize (readLoop (buffer ++ chunk).length (buffer ++ chunk)).2 = left at hacc h₂
    obtain ⟨⟨dropped, hbytes, hleft⟩, hsmall⟩ := hacc
    have hlen := congrArg List.length hbytes
    rw [List.length_append, List.length_append, List.length_append] at hlen
    rw [length_wire_append, List.flatten_cons, List.length_append]
    cases left with
    | none =>
      -- the program has ended: nothing more comes, and something was dropped
      have hfs : fs₂ = [] := List.map_eq_nil_iff.mp (h₂.trans (by rw [deliver]))
      subst hfs
      have hpos : 0 < dropped.length := by
        rw [List.length_pos_iff]
        intro hd
        exact absurd (hleft hd) (by simp)
      have hz : (wire []).length = 0 := rfl
      refine ⟨by omega, fun heq _ => by omega, fun f hf => ?_⟩
      rw [List.append_nil] at hf
      exact hsmall f hf
    | some rest =>
      obtain ⟨hle, halign, hsmall₂⟩ := ih rest fs₂ h₂.symm
      simp only [Option.getD_some] at hlen hbytes
      refine ⟨by omega, fun heq hb => ?_, fun f hf => ?_⟩
      · -- nothing was dropped here, so nothing is left over either
        have hd : dropped = [] := List.length_eq_zero_iff.mp (by omega)
        have hr : rest = [] := Option.some.inj (hleft hd)
        obtain ⟨groups, hflat, hmap⟩ := halign (by omega) hr
        refine ⟨fs₁ :: groups, by rw [List.flatten_cons, hflat], ?_⟩
        rw [hd, hb, hr, List.nil_append, List.append_nil, List.append_nil] at hbytes
        rw [List.map_cons, hmap, hbytes]
      · rcases List.mem_append.mp hf with hf | hf
        · exact hsmall f hf
        · exact hsmall₂ f hf

/-- Whole frames come through event by event. -/
theorem deliver_wire (groups : List (List Frame))
    (h : ∀ f ∈ groups.flatten, 1 ≤ f.msg.length ∧ f.msg.length < intMax) :
    deliver (some []) (groups.map wire) = groups.flatten.map Frame.received := by
  induction groups with
  | nil => rfl
  | cons fs groups ih =>
    have hfs := onReadEvent_wire fun f hf => h f (List.mem_append_left _ hf)
    show (onReadEvent ([] ++ wire fs)).1 ++ deliver (onReadEvent ([] ++ wire fs)).2 _ = _
    rw [List.nil_append, hfs, List.flatten_cons, List.map_append,
      ← ih fun f hf => h f (List.mem_append_right _ hf)]

/-- All frames come through, in order and as they were sent, exactly when every
event brings a whole number of frames and no frame is of the largest length. -/
theorem deliver_eq_iff {fs : List Frame} (hs : ∀ f ∈ fs, f.Sendable) {chunks : List (List Byte)}
    (hcut : chunks.flatten = wire fs) :
    deliver (some []) chunks = fs.map Frame.received ↔
      Aligned fs chunks ∧ ∀ f ∈ fs, f.msg.length < intMax := by
  constructor
  · intro h
    obtain ⟨-, halign, hsmall⟩ := deliver_accounted chunks [] fs h
    exact ⟨halign (by rw [hcut, List.length_nil, Nat.zero_add]) rfl, hsmall⟩
  · intro h
    obtain ⟨⟨groups, rfl, rfl⟩, hsmall⟩ := h
    exact deliver_wire groups fun f hf => ⟨(hs f hf).1, hsmall f hf⟩

/-- Two frames, the second with two bytes. -/
def twoFrames : List Frame := [⟨5059, [7]⟩, ⟨5053, [1, 2]⟩]

theorem twoFrames_sendable : ∀ f ∈ twoFrames, f.Sendable := by
  intro f hf
  simp only [twoFrames, List.mem_cons, List.not_mem_nil, or_false] at hf
  rcases hf with rfl | rfl
  · exact ⟨by decide, by decide⟩
  · exact ⟨by decide, by decide⟩

theorem deliver_eq_iff_two :
    deliver (some []) [wire twoFrames] = twoFrames.map Frame.received ↔
      Aligned twoFrames [wire twoFrames] ∧ ∀ f ∈ twoFrames, f.msg.length < intMax :=
  deliver_eq_iff twoFrames_sendable (List.append_nil _)

/-- A cut inside the first length field: none of the frames comes through as
sent. -/
theorem deliver_cut_fails :
    ¬∀ (fs : List Frame), (∀ f ∈ fs, f.Sendable) → ∀ chunks : List (List Byte),
      chunks.flatten = wire fs → deliver (some []) chunks = fs.map Frame.received := by
  intro h
  have hall := h twoFrames twoFrames_sendable [(wire twoFrames).take 2, (wire twoFrames).drop 2]
    (by decide)
  have hlen := congrArg List.length hall
  exact absurd hlen (by decide)

end RobotDdz.Net
