import RobotDdz.Net.Decode

/-!
# The length field of a frame

Decode follows what `OnReadEvent` hands on; this file follows what it does with
the length field. A round allocates `iMsgLen + 1` bytes, asks
`bufferevent_read` for `iMsgLen` as a `size_t`, and appends `iMsgLen` bytes to
the payload whatever the read returned. Only the length zero is turned away.

`Round.sound_iff`: a round is sound when the length is positive, not `INT_MAX`
and no more than what is there. `onReadRounds_sound_iff`: the loop ends on
every buffer, and its rounds are all sound exactly when the buffer is whole
frames up to where the loop stops reading. `onReadRounds_messages` ties the
loop to that of Decode.

The same loop as in `Decode` is modelled again, on the level of the sizes it
computes with: lengths are `BitVec 32` read as `int`s, and the size of the
allocation, of the read and of the `append` are each what C++ makes of them.
The handler is a parameter, with the one answer it can give that the loop looks
at and the one it cannot see (`Answer`), so that the results are for any robot.
-/

namespace RobotDdz.Net

open Words

/-- A `size_t` kept in an `int`, as `GetReadBufferLen` does. -/
def asInt (n : Nat) : Int := (BitVec.ofNat 32 n).toInt

/-- What a round of `OnReadEvent` starts from: the length field and the bytes
behind the header. -/
structure Round where
  iMsgLen : BitVec 32
  available : Nat
deriving DecidableEq, Repr

namespace Round

/-- The size in `new char[iMsgLen + 1]`, before it is kept in an `int`. -/
def allocated (r : Round) : Int := r.iMsgLen.toInt + 1

/-- `iMsgLen` as the `size_t` of `bufferevent_read` and of `string::append`. -/
def asked (r : Round) : Nat := (r.iMsgLen.signExtend 64).toNat

/-- The bytes `bufferevent_read` writes. -/
def read (r : Round) : Nat := min r.asked r.available

/-- The bytes `append` takes. -/
def appended (r : Round) : Nat := r.asked

/-- The allocation is not negative and does not overflow, the read is within
it, and the payload is made of bytes that were read. -/
structure Sound (r : Round) : Prop where
  nonneg : 0 ≤ r.allocated
  noOverflow : r.allocated ≤ intMax
  fits : (r.asked : Int) ≤ r.allocated
  read : r.appended ≤ r.read

/-- What is asked for is the length, unless it is negative. -/
theorem asked_eq (r : Round) : (r.asked : Int)
    = if r.iMsgLen.toInt < 0 then r.iMsgLen.toInt + 2 ^ 64 else r.iMsgLen.toInt := by
  have hlt := r.iMsgLen.isLt
  have hcond := BitVec.toInt_eq_toNat_cond r.iMsgLen
  have hsign : r.iMsgLen.msb = decide (r.iMsgLen.toInt < 0) := BitVec.msb_eq_toInt
  rw [asked, BitVec.toNat_signExtend, BitVec.toNat_setWidth, hsign]
  by_cases hneg : r.iMsgLen.toInt < 0
  · rw [if_pos hneg, if_pos (decide_eq_true hneg)]
    split at hcond <;> omega
  · rw [if_neg hneg, if_neg (by simpa using hneg)]
    split at hcond <;> omega

/-- A round is sound for a length that is not negative, not the largest and no
more than what is there. -/
theorem sound_iff (r : Round) : r.Sound ↔
    0 ≤ r.iMsgLen.toInt ∧ r.iMsgLen.toInt < intMax ∧ r.iMsgLen.toInt ≤ r.available := by
  have hasked := r.asked_eq
  have hlow := BitVec.le_toInt r.iMsgLen
  constructor
  · rintro ⟨hneg, hmax, hfits, hread⟩
    have hle : r.asked ≤ r.available := Nat.le_trans hread (Nat.min_le_right _ _)
    unfold allocated at hneg hmax hfits
    split at hasked
    · omega
    · omega
  · rintro ⟨hneg, hmax, hle⟩
    rw [if_neg (by omega)] at hasked
    refine ⟨by unfold allocated; omega, by unfold allocated; omega, by unfold allocated; omega, ?_⟩
    show r.asked ≤ min r.asked r.available
    omega

end Round

/-- How a handler leaves the connection. `closed` is one that `RobotProcess`
does not tell of: `bev_` is null then. -/
inductive Answer where
  | carriesOn | closeConnection | closed
deriving DecidableEq, Repr

/-- The header of a round: length, message id and the bytes behind them;
`none` where `OnReadEvent` breaks off. -/
def readHeader (buffer : List Byte) : Option (BitVec 32 × BitVec 32 × List Byte) :=
  let (msgLen, buffer) := readBuffer 4 buffer
  if msgLen.length ≠ 4 then none
  else if (ofBytes msgLen).toInt = 0 then none
  else
    let (msgId, buffer) := readBuffer 4 buffer
    if msgId.length ≠ 4 then none else some (ofBytes msgLen, ofBytes msgId, buffer)

section

variable {σ : Type} (process : σ → Message → σ × Answer)

/-- The loop of `OnReadEvent` over a robot with state `σ`: the rounds that
reach the allocation, and the robot after them; `none` is a loop that has not
ended. `live` says that `bev_` is not null: a read on a closed connection
returns -1, which is not 4. `dataLength` is taken before the message is
processed, but no handler reads. The program ends where the allocation or the
`append` throws. -/
def readRounds : (fuel : Nat) → List Byte → (live : Bool) → σ → Option (List Round × σ)
  | 0, buffer, _, s => if asInt buffer.length ≤ 0 then some ([], s) else none
  | fuel + 1, buffer, live, s =>
    if asInt buffer.length ≤ 0 then some ([], s)
    else if live = false then some ([], s)
    else match readHeader buffer with
      | none => some ([], s)
      | some (iMsgLen, msgId, buffer) =>
        let round : Round := ⟨iMsgLen, buffer.length⟩
        if iMsgLen.toInt < 0 ∨ (intMax : Int) ≤ iMsgLen.toInt then some ([round], s)
        else
          let (msg, buffer) := readBuffer iMsgLen.toInt.toNat buffer
          let r := process s ⟨msgId, payload iMsgLen.toInt.toNat msg⟩
          match r.2 with
          | .closeConnection => some ([round], r.1)
          | .carriesOn => (readRounds fuel buffer true r.1).map fun q => (round :: q.1, q.2)
          | .closed => (readRounds fuel buffer false r.1).map fun q => (round :: q.1, q.2)

/-- `OnReadEvent` on the bytes in the buffer. -/
def onReadRounds (s : σ) (buffer : List Byte) : Option (List Round × σ) :=
  readRounds process buffer.length buffer true s

/-- A handler that closes the connection at one of these messages. -/
def Stops : σ → List Frame → Prop
  | _, [] => False
  | s, f :: fs =>
    (process s f.received).2 ≠ .carriesOn ∨ Stops (process s f.received).1 fs

/-- Too few bytes for a header, or a length field of zero. -/
def Headless (buffer : List Byte) : Prop := buffer.length < 8 ∨ buffer.take 4 = toBytes 0

/-- The buffer is frames, each with its whole payload and none of the largest
length, up to where the loop stops: a handler closes the connection, there are
no more bytes that `dataLength` can tell, or no header follows. -/
def WholeFrames (s : σ) (buffer : List Byte) : Prop :=
  ∃ fs tail, buffer = wire fs ++ tail ∧ (∀ f ∈ fs, 1 ≤ f.msg.length ∧ f.msg.length < intMax) ∧
    (Stops process s fs ∨ asInt tail.length ≤ 0 ∨ Headless tail)

/-! ## The header -/

/-- The loop breaks off where there are too few bytes or the length is zero,
and only there; a negative length is read like any other. -/
theorem readHeader_eq_none {buffer : List Byte} : readHeader buffer = none ↔ Headless buffer := by
  unfold readHeader Headless readBuffer
  dsimp only
  by_cases h4 : (buffer.take 4).length ≠ 4
  · rw [if_pos h4]
    rw [List.length_take] at h4
    exact ⟨fun _ => Or.inl (by omega), fun _ => rfl⟩
  · rw [if_neg h4]
    have hback := toBytes_ofBytes (not_not.mp h4)
    by_cases hz : (ofBytes (buffer.take 4)).toInt = 0
    · rw [if_pos hz]
      rw [BitVec.toInt_inj.mp (hz.trans BitVec.toInt_zero.symm)] at hback
      exact ⟨fun _ => Or.inr hback.symm, fun _ => rfl⟩
    · rw [if_neg hz]
      have hne : buffer.take 4 ≠ toBytes 0 := by
        intro he
        rw [he, ofBytes_toBytes] at hz
        exact hz rfl
      rw [List.length_take] at h4
      by_cases hid : ((buffer.drop 4).take 4).length ≠ 4
      · rw [if_pos hid]
        rw [List.length_take, List.length_drop] at hid
        exact ⟨fun _ => Or.inl (by omega), fun _ => rfl⟩
      · rw [if_neg hid]
        rw [List.length_take, List.length_drop] at hid
        exact ⟨fun h => by simp at h, fun h => h.elim (fun _ => by omega) fun h => absurd h hne⟩

/-- Otherwise the buffer starts with a header: the bytes of the length and of
the id, in front of what is left to read. -/
theorem readHeader_eq_some {buffer rest : List Byte} {len id : BitVec 32}
    (h : readHeader buffer = some (len, id, rest)) :
    buffer = toBytes len ++ toBytes id ++ rest ∧ len.toInt ≠ 0 := by
  unfold readHeader readBuffer at h
  dsimp only at h
  by_cases h4 : (buffer.take 4).length ≠ 4
  · rw [if_pos h4] at h
    cases h
  rw [if_neg h4] at h
  by_cases hz : (ofBytes (buffer.take 4)).toInt = 0
  · rw [if_pos hz] at h
    cases h
  rw [if_neg hz] at h
  by_cases hid : ((buffer.drop 4).take 4).length ≠ 4
  · rw [if_pos hid] at h
    cases h
  rw [if_neg hid] at h
  cases h
  refine ⟨?_, hz⟩
  rw [toBytes_ofBytes (not_not.mp h4), toBytes_ofBytes (not_not.mp hid), List.append_assoc,
    List.take_append_drop, List.take_append_drop]

/-- Two buffers that start with a header each have the same header. -/
theorem header_inj {len len' id id' : BitVec 32} {rest rest' : List Byte}
    (h : toBytes len ++ toBytes id ++ rest = toBytes len' ++ toBytes id' ++ rest') :
    len = len' ∧ id = id' ∧ rest = rest' := by
  rw [List.append_assoc, List.append_assoc] at h
  obtain ⟨hlen, h⟩ := List.append_inj h rfl
  obtain ⟨hid, hrest⟩ := List.append_inj h rfl
  have hlen' := congrArg ofBytes hlen
  have hid' := congrArg ofBytes hid
  rw [ofBytes_toBytes, ofBytes_toBytes] at hlen' hid'
  exact ⟨hlen', hid', hrest⟩

/-! ## The rounds -/

theorem asInt_zero : asInt 0 = 0 := rfl

/-- On a closed connection the loop ends without another round. -/
theorem readRounds_closed (fuel : Nat) {buffer : List Byte} (hfuel : buffer.length ≤ fuel) (s : σ) :
    readRounds process fuel buffer false s = some ([], s) := by
  cases fuel with
  | zero =>
    rw [readRounds, Nat.le_zero.mp hfuel, asInt_zero, if_pos (Int.le_refl 0)]
  | succ fuel =>
    rw [readRounds]
    split
    · rfl
    · rfl

/-- A read that gets all it asks for leaves no byte of the payload out. -/
theorem payload_of_length {n : Nat} {bytes : List Byte} (h : bytes.length = n) :
    payload n bytes = bytes.map some := by
  rw [payload, h, Nat.sub_self, List.replicate_zero, List.append_nil]

/-- The frame that a sound round reads. -/
theorem frame_of_sound {len : BitVec 32} (id : BitVec 32) {rest : List Byte}
    (hz : len.toInt ≠ 0) (h : (⟨len, rest.length⟩ : Round).Sound) :
    ∃ f : Frame, f = ⟨id, rest.take len.toInt.toNat⟩ ∧ f.msg.length = len.toInt.toNat ∧
      (1 ≤ f.msg.length ∧ f.msg.length < intMax) ∧
      toBytes len ++ toBytes id ++ rest = f.serialize ++ rest.drop len.toInt.toNat := by
  obtain ⟨h0, h1, h2⟩ := (Round.sound_iff _).mp h
  dsimp only at h0 h1 h2
  have hlen : (rest.take len.toInt.toNat).length = len.toInt.toNat := by
    rw [List.length_take]
    omega
  refine ⟨_, rfl, hlen, ?_, ?_⟩
  · dsimp only
    rw [hlen]
    omega
  · rw [Frame.serialize, hlen, ofNat_toInt h0, List.append_assoc _ (rest.take _),
      List.take_append_drop]

/-- A header that starts a whole frame is the header of that frame, and its
round is sound. -/
theorem sound_of_frame {len id : BitVec 32} {rest rest' : List Byte} {f : Frame}
    (hf : 1 ≤ f.msg.length ∧ f.msg.length < intMax)
    (h : toBytes len ++ toBytes id ++ rest = f.serialize ++ rest') :
    (⟨len, rest.length⟩ : Round).Sound ∧ len.toInt.toNat = f.msg.length ∧ id = f.msgId ∧
      rest = f.msg ++ rest' := by
  have hint := toInt_length (Nat.le_of_lt hf.2)
  rw [Frame.serialize, List.append_assoc _ f.msg] at h
  obtain ⟨hlen, hid, hrest⟩ := header_inj h
  refine ⟨(Round.sound_iff _).mpr ?_, ?_, hid, hrest⟩
  · dsimp only
    rw [hlen, hint, hrest, List.length_append]
    omega
  · rw [hlen, hint, Int.toNat_natCast]

/-- Where the loop reads a header there are bytes for one. -/
theorem not_headless {len id : BitVec 32} {rest : List Byte} (hz : len.toInt ≠ 0) :
    ¬Headless (toBytes len ++ toBytes id ++ rest) := by
  rintro (hshort | hzero)
  · rw [List.length_append, List.length_append, length_toBytes, length_toBytes] at hshort
    omega
  · rw [List.append_assoc, List.take_left' (length_toBytes len)] at hzero
    have hlen := congrArg ofBytes hzero
    rw [ofBytes_toBytes, ofBytes_toBytes] at hlen
    rw [hlen] at hz
    exact hz rfl

/-- A frame in front of whole frames: its round is sound, and either the
handler closes the connection at it or what follows is whole frames. -/
theorem wholeFrames_iff (s : σ) {len : BitVec 32} (id : BitVec 32) (rest : List Byte)
    (hz : len.toInt ≠ 0) (hpos : 0 < asInt (toBytes len ++ toBytes id ++ rest).length) :
    WholeFrames process s (toBytes len ++ toBytes id ++ rest) ↔
      (⟨len, rest.length⟩ : Round).Sound ∧
        let r := process s ⟨id, payload len.toInt.toNat (rest.take len.toInt.toNat)⟩
        (r.2 ≠ .carriesOn ∨ WholeFrames process r.1 (rest.drop len.toInt.toNat)) := by
  dsimp only
  constructor
  · rintro ⟨fs, tail, hbuf, hfs, hend⟩
    cases fs with
    | nil =>
      -- the loop would have to stop before this header
      replace hbuf : toBytes len ++ toBytes id ++ rest = tail := hbuf
      rw [← hbuf] at hend
      rcases hend with hstop | hlen | hhead
      · exact hstop.elim
      · omega
      · exact absurd hhead (not_headless hz)
    | cons f fs =>
      have hsplit : toBytes len ++ toBytes id ++ rest = f.serialize ++ (wire fs ++ tail) := by
        rw [hbuf, ← List.append_assoc]
        rfl
      obtain ⟨hsound, hlen, hid, hrest⟩ := sound_of_frame (hfs f List.mem_cons_self) hsplit
      have hwhole : ∀ g ∈ fs, 1 ≤ g.msg.length ∧ g.msg.length < intMax := fun g hg =>
        hfs g (List.mem_cons_of_mem _ hg)
      rw [hlen, hid, hrest, List.take_left' rfl, List.drop_left' rfl, payload_of_length rfl]
      rw [hrest] at hsound
      refine ⟨hsound, ?_⟩
      rcases hend with (hstop | hstop) | hend
      · exact Or.inl hstop
      · exact Or.inr ⟨fs, tail, rfl, hwhole, Or.inl hstop⟩
      · exact Or.inr ⟨fs, tail, rfl, hwhole, Or.inr hend⟩
  · rintro ⟨hsound, hnext⟩
    obtain ⟨f, hf, hlen, hbounds, hframe⟩ := frame_of_sound id hz hsound
    have hmsg : (⟨id, payload len.toInt.toNat (rest.take len.toInt.toNat)⟩ : Message)
        = f.received := by
      rw [hf] at hlen ⊢
      rw [payload_of_length hlen]
      rfl
    rw [hmsg] at hnext
    rw [hframe]
    rcases hnext with hstop | ⟨fs, tail, hbuf, hfs, hend⟩
    · refine ⟨[f], rest.drop len.toInt.toNat, by simp [wire], fun g hg => ?_, Or.inl (Or.inl hstop)⟩
      rw [List.mem_singleton.mp hg]
      exact hbounds
    · refine ⟨f :: fs, tail, ?_, fun g hg => ?_, hend.imp Or.inr fun h => h⟩
      · rw [hbuf, ← List.append_assoc]
        rfl
      · rcases List.mem_cons.mp hg with rfl | hg
        · exact hbounds
        · exact hfs g hg

/-- The loop ends, and its rounds are sound exactly on whole frames. The
induction is on the bytes left, as a round takes at least the eight of a
header; a refused length and a handler that closes the connection end the loop
early. -/
theorem readRounds_sound_iff : ∀ (fuel : Nat) (buffer : List Byte) (s : σ),
    buffer.length ≤ fuel → ∃ rounds t, readRounds process fuel buffer true s = some (rounds, t) ∧
      ((∀ r ∈ rounds, r.Sound) ↔ WholeFrames process s buffer) := by
  -- where no round is made, nothing of the buffer has to be a frame
  have hnone : ∀ {buffer : List Byte} {s : σ}, asInt buffer.length ≤ 0 ∨ Headless buffer →
      ((∀ r ∈ ([] : List Round), r.Sound) ↔ WholeFrames process s buffer) := fun h =>
    ⟨fun _ => ⟨[], _, rfl, fun _ hf => absurd hf List.not_mem_nil, Or.inr h⟩,
      fun _ _ hr => absurd hr List.not_mem_nil⟩
  intro fuel
  induction fuel with
  | zero =>
    intro buffer s hfuel
    have hlen : asInt buffer.length ≤ 0 := by
      rw [Nat.le_zero.mp hfuel, asInt_zero]
    rw [readRounds, if_pos hlen]
    exact ⟨[], s, rfl, hnone (Or.inl hlen)⟩
  | succ fuel ih =>
    intro buffer s hfuel
    rw [readRounds]
    by_cases hlen : asInt buffer.length ≤ 0
    · rw [if_pos hlen]
      exact ⟨[], s, rfl, hnone (Or.inl hlen)⟩
    rw [if_neg hlen, if_neg Bool.true_eq_false_eq_False]
    cases hh : readHeader buffer with
    | none => exact ⟨[], s, rfl, hnone (Or.inr (readHeader_eq_none.mp hh))⟩
    | some header =>
      obtain ⟨len, id, rest⟩ := header
      obtain ⟨hbuf, hz⟩ := readHeader_eq_some hh
      have hiff := wholeFrames_iff process s id rest hz
        (by rw [← hbuf]; omega)
      rw [← hbuf] at hiff
      have hrest : (rest.drop len.toInt.toNat).length ≤ fuel := by
        have h8 := congrArg List.length hbuf
        rw [List.length_append, List.length_append, length_toBytes, length_toBytes] at h8
        rw [List.length_drop]
        omega
      dsimp only [readBuffer] at hiff ⊢
      by_cases hrange : len.toInt < 0 ∨ (intMax : Int) ≤ len.toInt
      · -- the program ends in this round
        rw [if_pos hrange]
        refine ⟨_, s, rfl, ?_⟩
        rw [hiff, List.forall_mem_singleton, Round.sound_iff]
        dsimp only
        constructor
        · intro h
          omega
        · intro h
          omega
      rw [if_neg hrange]
      generalize process s ⟨id, payload len.toInt.toNat (rest.take len.toInt.toNat)⟩ = r at hiff ⊢
      obtain ⟨t, answer⟩ := r
      cases answer with
      | closeConnection =>
        refine ⟨_, t, rfl, ?_⟩
        rw [hiff, List.forall_mem_singleton]
        exact ⟨fun h => ⟨h, Or.inl (by simp)⟩, fun h => h.1⟩
      | closed =>
        dsimp only
        rw [readRounds_closed process fuel hrest t]
        refine ⟨_, t, rfl, ?_⟩
        rw [hiff, List.forall_mem_singleton]
        exact ⟨fun h => ⟨h, Or.inl (by simp)⟩, fun h => h.1⟩
      | carriesOn =>
        dsimp only
        obtain ⟨rounds, u, heq, hsound⟩ := ih (rest.drop len.toInt.toNat) t hrest
        rw [heq]
        refine ⟨_, u, rfl, ?_⟩
        rw [hiff, List.forall_mem_cons, hsound]
        exact and_congr_right fun _ => ⟨Or.inr, fun h => h.resolve_left (fun hne => hne rfl)⟩

/-- `OnReadEvent` ends on every buffer. Each of its rounds allocates a size
that is not negative, reads within it and builds the payload from what it read
exactly when the buffer is whole frames up to where it stops reading. -/
theorem onReadRounds_sound_iff (s : σ) (buffer : List Byte) :
    ∃ rounds t, onReadRounds process s buffer = some (rounds, t) ∧
      ((∀ r ∈ rounds, r.Sound) ↔ WholeFrames process s buffer) :=
  readRounds_sound_iff process buffer.length buffer s (Nat.le_refl _)

end

/-! ## Lengths that are not handled -/

/-- A header and the bytes behind it, for a handler that never closes the
connection. -/
def afterHeader (len : BitVec 32) (bytes : List Byte) : Option (List Round × Unit) :=
  onReadRounds (fun s _ => (s, .carriesOn)) () (toBytes len ++ toBytes 5059 ++ bytes)

/-- The length -1 asks for more than any array holds, `INT_MAX` overflows the
size of the allocation, and a length of five with two bytes behind the header
takes three bytes that were never read. -/
theorem onReadRounds_fails :
    (¬∃ rounds t, afterHeader (-1) [7] = some (rounds, t) ∧ ∀ r ∈ rounds, r.Sound) ∧
      (¬∃ rounds t, afterHeader 2147483647 [7] = some (rounds, t) ∧ ∀ r ∈ rounds, r.Sound) ∧
        ¬∃ rounds t, afterHeader 5 [1, 2] = some (rounds, t) ∧ ∀ r ∈ rounds, r.Sound := by
  have hround : ∀ {len : BitVec 32} {bytes : List Byte} {q : List Round × Unit},
      afterHeader len bytes = some q → q.1 = [⟨len, bytes.length⟩] →
      ¬(⟨len, bytes.length⟩ : Round).Sound →
      ¬∃ rounds t, afterHeader len bytes = some (rounds, t) ∧ ∀ r ∈ rounds, r.Sound := by
    rintro len bytes q hq h1 hbad ⟨rounds, t, heq, hall⟩
    rw [hq] at heq
    have he : q.1 = rounds := congrArg Prod.fst (Option.some.inj heq)
    rw [h1] at he
    exact hbad (hall _ (by rw [← he]; exact List.mem_singleton_self _))
  refine ⟨hround (q := ([⟨-1, 1⟩], ())) rfl rfl ?_,
    hround (q := ([⟨2147483647, 1⟩], ())) rfl rfl ?_,
    hround (q := ([⟨5, 2⟩], ())) rfl rfl ?_⟩
  · rw [Round.sound_iff]
    decide
  · rw [Round.sound_iff]
    decide
  · rw [Round.sound_iff]
    decide

/-! ## The same loop as in Decode -/

/-- A robot that keeps its messages and never closes the connection. -/
def keepMessages (ms : List Message) (m : Message) : List Message × Answer :=
  (ms ++ [m], .carriesOn)

/-- A round of Decode's loop, by its header: negative lengths and those from
`intMax` on are refused, and end the loop. -/
theorem readLoop_header (fuel : Nat) {buffer : List Byte} (h0 : buffer.length ≠ 0) :
    (readLoop (fuel + 1) buffer).1 = match readHeader buffer with
      | none => []
      | some (len, id, rest) =>
        if len.toInt < 0 ∨ (intMax : Int) ≤ len.toInt then []
        else ⟨id, payload len.toInt.toNat (rest.take len.toInt.toNat)⟩
          :: (readLoop fuel (rest.drop len.toInt.toNat)).1 := by
  rw [readLoop, if_neg h0]
  unfold readHeader readBuffer
  dsimp only
  by_cases h4 : (buffer.take 4).length ≠ 4
  · rw [if_pos h4, if_pos h4]
  rw [if_neg h4, if_neg h4]
  by_cases hz : (ofBytes (buffer.take 4)).toInt = 0
  · rw [if_pos hz, if_pos hz]
  rw [if_neg hz, if_neg hz]
  by_cases hid : ((buffer.drop 4).take 4).length ≠ 4
  · rw [if_pos hid, if_pos hid]
  rw [if_neg hid, if_neg hid]
  dsimp only
  by_cases hr : (ofBytes (buffer.take 4)).toInt < 0
      ∨ (intMax : Int) ≤ (ofBytes (buffer.take 4)).toInt
  · rw [if_pos hr, if_pos hr]
  · rw [if_neg hr, if_neg hr]

/-- With a robot that keeps its messages, the rounds hand on what the loop of
`Decode` hands on. The induction is on the fuel, which the length of the buffer
bounds. -/
theorem readRounds_messages : ∀ (fuel : Nat) (buffer : List Byte) (ms : List Message),
    buffer.length ≤ fuel → buffer.length ≤ intMax → ∃ rounds,
      readRounds keepMessages fuel buffer true ms
        = some (rounds, ms ++ (readLoop fuel buffer).1) := by
  intro fuel
  induction fuel with
  | zero =>
    intro buffer ms hfuel _
    rw [readRounds, Nat.le_zero.mp hfuel, asInt_zero, if_pos (Int.le_refl 0)]
    exact ⟨[], by rw [readLoop, List.append_nil]⟩
  | succ fuel ih =>
    intro buffer ms hfuel hmax
    have hint : asInt buffer.length = (buffer.length : Int) := toInt_length hmax
    rw [readRounds, hint]
    by_cases h0 : buffer.length = 0
    · rw [if_pos (by omega), readLoop, if_pos h0]
      exact ⟨[], by rw [List.append_nil]⟩
    rw [if_neg (by omega), if_neg Bool.true_eq_false_eq_False, readLoop_header fuel h0]
    cases hh : readHeader buffer with
    | none => exact ⟨[], by rw [List.append_nil]⟩
    | some header =>
      obtain ⟨len, id, rest⟩ := header
      have h8 := congrArg List.length (readHeader_eq_some hh).1
      rw [List.length_append, List.length_append, length_toBytes, length_toBytes] at h8
      dsimp only [readBuffer, keepMessages]
      by_cases hr : len.toInt < 0 ∨ (intMax : Int) ≤ len.toInt
      · rw [if_pos hr, if_pos hr, List.append_nil]
        exact ⟨_, rfl⟩
      · rw [if_neg hr, if_neg hr]
        have hdrop : (rest.drop len.toInt.toNat).length ≤ rest.length := by
          rw [List.length_drop]
          exact Nat.sub_le _ _
        obtain ⟨rounds, heq⟩ := ih (rest.drop len.toInt.toNat)
          (ms ++ [⟨id, payload len.toInt.toNat (rest.take len.toInt.toNat)⟩])
          (by omega) (by omega)
        rw [heq]
        exact ⟨_, by rw [List.append_assoc]; rfl⟩

/-- As long as the buffer fits an `int`, the messages are those of
`onReadEvent`. -/
theorem onReadRounds_messages {buffer : List Byte} (h : buffer.length ≤ intMax) :
    ∃ rounds, onReadRounds keepMessages [] buffer = some (rounds, (onReadEvent buffer).1) :=
  readRounds_messages buffer.length buffer [] (Nat.le_refl _) h

end RobotDdz.Net
