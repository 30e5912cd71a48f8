import RobotDdz.Lib.Wheel
import RobotDdz.Net.Delayed

/-!
# The idle timeout

`EventProcess` gives every task robot's connection an `Entry` and keeps the
entries in a ring of thirty buckets, `connectionBuckets_`. `ConnectEvent` and
`OnReadEvent` put the entry into the newest bucket, `TimingWheelOnTime` pushes
a new one, and an entry that no bucket has any more is destroyed, which closes
its connection (`Sockets.step (.expire c)`).

`Wheel` is the ring on top of the sockets, and each of its events a run of
theirs. `idle_timeout`: in every schedule an open connection is closed by its
entry at a tick exactly when the tick is the thirtieth after its last connect
or read event.

A close by the server of a connection that a delayed message holds is left out
of the schedules: it breaks the sockets under the wheel (`Sockets.Unheld`).

The ring itself is a general structure and lives in `Lib/Wheel`: buckets of
elements, `refresh` puts an element into the newest one, `push` adds a new one
and drops the oldest, and the age of an element is the number of ticks since it was
refreshed. What is added here is what the buckets hold, shared pointers to
entries, and what the destruction of an entry does to a connection that may
have been closed on another path by then.

Mirroring notes vs `EventProcess.cpp`:
- `connectionBuckets_` is a `boost::circular_buffer` of thirty hash sets.
  `push_back` on a full one drops the front. The list here has the newest
  bucket first.
- A connection keeps a weak pointer to its entry in `context_`. `OnReadEvent`
  finds the entry through it, and finds none once the entry is destroyed.
- The hash set destroys its entries in an order of its own, so a tick is given
  with the order, and the result is for each.
-/

namespace RobotDdz.Net

open Runs TimingWheel

/-- The number of buckets. -/
def wheelSize : Nat := 30

/-- The sockets, the ring, the newest bucket first, and the connection objects
whose `context_` has been set. -/
structure Wheel where
  sockets : Sockets
  connectionBuckets : List (List Conn) := [[]]
  context : List Nat := []

/-- What happens to the wheel. A tick destroys entries in the order in which
the dropped bucket, a hash set, has them. The rest is what happens to the
sockets besides. -/
inductive WheelEvent where
  | timingWheelOnTime (gone : List Conn)
  | connectEvent (c : Conn)
  | onReadEvent (c : Conn)
  | other (e : PoolEvent)

namespace Sockets

/-! ## What the wheel needs to know of the sockets -/

/-- A connection in the map is an old one or a new object, objects are numbered
upwards, and a cleared `bev_` stays cleared. -/
theorem step_conns (s : Sockets) (e : PoolEvent) :
    (∀ c ∈ (s.step e).pool.mapConn, c ∈ s.pool.mapConn ∨ s.pool.created ≤ c.id) ∧
    s.pool.created ≤ (s.step e).pool.created ∧
    ∀ i, i < s.pool.created → s.pool.bev i = false → (s.step e).pool.bev i = false := by
  -- `CloseConnection` clears one `bev_` and sets none
  have hcloses : ∀ (p : Pool) (c : Conn) (i : Nat), p.bev i = false →
      (p.delRobot c).bev i = false := by
    intro p c i hi
    unfold Pool.delRobot
    split
    · show Function.update p.bev c.id false i = false
      rw [Function.update_apply]
      split
      · rfl
      · exact hi
    · exact hi
  have hcreated : ∀ (p : Pool) (c : Conn), (p.delRobot c).created = p.created := by
    intro p c
    unfold Pool.delRobot
    split <;> rfl
  cases e with
  | addRobot n fds =>
    obtain ⟨new, hconns, hnew, hcreated, hbev, -, -⟩ := addRobot_conns fds n s.pool
    refine ⟨fun c hc => ?_, hcreated, fun i hi hset => (hbev i hi).trans hset⟩
    rcases List.mem_append.mp (hconns ▸ hc) with hc | hc
    · exact Or.inl hc
    · exact Or.inr (hnew c hc)
  | connected c | delaySend c | delaySent c =>
    exact ⟨fun _ hx => Or.inl hx, Nat.le_refl _, fun _ _ hset => hset⟩
  | eventCb fd =>
    show (∀ c ∈ (s.pool.eventCb fd).mapConn, _) ∧ _ ≤ (s.pool.eventCb fd).created ∧
      ∀ i, _ → _ → (s.pool.eventCb fd).bev i = false
    unfold Pool.eventCb
    split
    · exact ⟨fun x hx => Or.inl (mapConn_eraseFd_subset _ _ x hx), Nat.le_refl _,
        fun _ _ hset => hset⟩
    · exact ⟨fun _ hx => Or.inl hx, Nat.le_refl _, fun _ _ hset => hset⟩
  | delRobot c =>
    exact ⟨fun x hx => Or.inl (mapConn_delRobot_subset _ c x hx), Nat.le_of_eq (hcreated _ c).symm,
      fun i _ hset => hcloses _ c i hset⟩
  | delRobotAndCloseConnection c =>
    show (∀ x ∈ (s.pool.delRobotAndCloseConnection c).mapConn, _) ∧
      _ ≤ (s.pool.delRobotAndCloseConnection c).created ∧
      ∀ i, _ → _ → (s.pool.delRobotAndCloseConnection c).bev i = false
    unfold Pool.delRobotAndCloseConnection
    split
    · refine ⟨fun x hx => Or.inl (mapConn_eraseFd_subset _ _ x hx), Nat.le_refl _,
        fun i _ hset => ?_⟩
      show Function.update s.pool.bev c.id false i = false
      rw [Function.update_apply]
      split
      · rfl
      · exact hset
    · exact ⟨fun _ hx => Or.inl hx, Nat.le_refl _, fun _ _ hset => hset⟩
  | expire c =>
    show (∀ x ∈ (s.pool.expire c).mapConn, _) ∧ _ ≤ (s.pool.expire c).created ∧
      ∀ i, _ → _ → (s.pool.expire c).bev i = false
    unfold Pool.expire
    dsimp only
    split
    · let p : Pool := { s.pool with entries := s.pool.entries.erase c }
      exact ⟨fun x hx => Or.inl (mapConn_delRobot_subset p c x hx),
        Nat.le_of_eq (hcreated p c).symm, fun i _ hset => hcloses p c i hset⟩
    · exact ⟨fun _ hx => Or.inl hx, Nat.le_refl _, fun _ _ hset => hset⟩

/-- `DelRobot` does not look at the entries. -/
theorem entries_delRobot (p : Pool) (c : Conn) : (p.delRobot c).entries = p.entries := by
  unfold Pool.delRobot
  split <;> rfl

/-- Only an accepted connection makes an entry, and only its expiry destroys
it. -/
theorem entries_step (s : Sockets) {e : PoolEvent} (hc : ∀ c, e ≠ .connected c)
    (hx : ∀ c, e ≠ .expire c) : (s.step e).pool.entries = s.pool.entries := by
  cases e with
  | addRobot n fds =>
    obtain ⟨_, -, -, -, -, -, hentries⟩ := addRobot_conns fds n s.pool
    exact hentries
  | connected c => exact absurd rfl (hc c)
  | expire c => exact absurd rfl (hx c)
  | eventCb fd =>
    show (s.pool.eventCb fd).entries = _
    unfold Pool.eventCb
    split <;> rfl
  | delRobot c => exact entries_delRobot s.pool c
  | delRobotAndCloseConnection c =>
    show (s.pool.delRobotAndCloseConnection c).entries = _
    unfold Pool.delRobotAndCloseConnection
    split <;> rfl
  | delaySend c | delaySent c => rfl

/-- The destruction of an entry closes its connection if it is open, and
nothing else. -/
theorem Inv.expire_spec {robots : List Nat} {s : Sockets} (h : Inv robots s) {c : Conn}
    (hc : c ∈ s.objects) :
    (s.step (.expire c)).pool.entries = s.pool.entries.erase c ∧
    (∀ x, x ∈ (s.step (.expire c)).pool.mapConn ↔ x ∈ s.pool.mapConn ∧ x ≠ c) ∧
    (c ∈ s.pool.mapConn → c.id ∈ (s.step (.expire c)).freed) := by
  by_cases hin : c ∈ s.pool.mapConn
  · have halive : s.pool.Alive c := Or.inl hin
    have hb := h.pool.bev c hin
    have hpool : (s.step (.expire c)).pool
        = Pool.delRobot { s.pool with entries := s.pool.entries.erase c } c := if_pos halive
    have hclosed : (c :: (s.step (.expire c)).pool.mapConn).Perm s.pool.mapConn := by
      have hconns := (Pool.closed_delRobot (p := { s.pool with
        entries := s.pool.entries.erase c }) h.pool.fds hin).conns
      rw [hpool, Pool.delRobot, if_pos hb]
      exact hconns
    have hnodup := hclosed.nodup_iff.mpr (h.pool.ids.of_map Conn.id)
    refine ⟨?_, fun x => ?_, fun _ => ?_⟩
    · rw [hpool, entries_delRobot]
    · rw [← hclosed.mem_iff, List.mem_cons]
      constructor
      · intro hx
        refine ⟨Or.inr hx, fun he => ?_⟩
        rw [he] at hx
        exact (List.nodup_cons.mp hnodup).1 hx
      · intro hx
        exact hx.1.resolve_left hx.2
    · show c.id ∈ s.freed ++ (if s.pool.Alive c ∧ s.pool.bev c.id then some c.id else none).toList
      rw [if_pos ⟨halive, hb⟩]
      exact List.mem_append_right _ (List.mem_singleton.mpr rfl)
  · -- closed already: its object is gone, or its `bev_` is cleared
    have hsame : (s.step (.expire c)).pool = { s.pool with entries := s.pool.entries.erase c } := by
      show s.pool.expire c = _
      unfold Pool.expire Pool.delRobot
      dsimp only
      split
      next halive => rw [if_neg fun hb => hin (h.settled c hc halive hb)]
      next => rfl
    rw [hsame]
    refine ⟨rfl, fun x => ⟨fun hx => ⟨hx, fun he => hin (he ▸ hx)⟩, fun hx => hx.1⟩, fun hc => ?_⟩
    exact absurd hc hin

/-- The destruction of several entries, one after the other: those that
were open are closed and freed, the others change nothing, and no entry but these is
touched. -/
theorem Inv.run_expire {robots : List Nat} (gone : List Conn) : ∀ {s : Sockets}, Inv robots s →
    gone.Nodup → (∀ c ∈ gone, c ∈ s.pool.entries) → s.pool.entries.Nodup →
    (∀ c ∈ s.pool.entries, c ∈ s.objects) →
    let s' := run Sockets.step s (gone.map .expire)
    Inv robots s' ∧ s'.objects = s.objects ∧ s'.pool.entries.Nodup ∧
    (∀ c, c ∈ s'.pool.entries ↔ c ∈ s.pool.entries ∧ c ∉ gone) ∧
    (∀ c, c ∈ s'.pool.mapConn ↔ c ∈ s.pool.mapConn ∧ c ∉ gone) ∧
    (∀ i ∈ s.freed, i ∈ s'.freed) ∧
    (∀ c ∈ gone, c ∈ s.pool.mapConn → c.id ∈ s'.freed) ∧
    s.pool.created ≤ s'.pool.created := by
  induction gone with
  | nil =>
    intro s h _ _ hd _
    refine ⟨h, rfl, hd, fun c => ?_, fun c => ?_, fun _ hi => hi, fun c hc => ?_, Nat.le_refl _⟩
    · simp
    · simp
    · exact absurd hc List.not_mem_nil
  | cons g gone ih =>
    intro s h hn hent hd hobj
    obtain ⟨hg, hn⟩ := List.nodup_cons.mp hn
    have hgent := hent g List.mem_cons_self
    obtain ⟨hentries, hconns, hfreed⟩ := h.expire_spec (hobj g hgent)
    have hstep := h.expire (hobj g hgent)
    have hobjects : (s.step (.expire g)).objects = s.objects :=
      h.objects_step fun c hc => ((hconns c).mp hc).1
    have hmem : ∀ c, c ∈ (s.step (.expire g)).pool.entries ↔ c ∈ s.pool.entries ∧ c ≠ g := by
      intro c
      rw [hentries, hd.mem_erase_iff, and_comm]
    obtain ⟨hinv, hobj', hd', hent', hconn', hmono, hclosed, hcreated⟩ := ih hstep hn
      (fun c hc => (hmem c).mpr ⟨hent c (List.mem_cons_of_mem _ hc), fun he => hg (he ▸ hc)⟩)
      (by rw [hentries]; exact hd.erase g)
      (fun c hc => by rw [hobjects]; exact hobj c ((hmem c).mp hc).1)
    refine ⟨hinv, hobj'.trans hobjects, hd', fun c => ?_, fun c => ?_, fun i hi => ?_,
      fun c hc hin => ?_, Nat.le_trans (step_conns s (.expire g)).2.1 hcreated⟩
    · rw [List.map_cons, run_cons, hent' c, hmem c, List.mem_cons, not_or, and_assoc]
    · rw [List.map_cons, run_cons, hconn' c, hconns c, List.mem_cons, not_or, and_assoc]
    · exact hmono i (List.mem_append_left _ hi)
    · rcases List.mem_cons.mp hc with rfl | hc
      · exact hmono _ (hfreed hin)
      · exact hclosed c hc ((hconns c).mpr ⟨hin, fun he => hg (he ▸ hc)⟩)

end Sockets

namespace Wheel

/-- The program before its first connection. -/
def start (robots : List Nat) : Wheel := { sockets := .start robots }

/-- What an event is to the sockets. -/
def toPool : WheelEvent → List PoolEvent
  | .timingWheelOnTime gone => gone.map .expire
  | .connectEvent c => [.connected c]
  | .onReadEvent _ => []
  | .other e => [e]

/-- What an event does to the ring. `OnReadEvent` finds the entry if it still
exists. -/
def turn (buckets : List (List Conn)) : WheelEvent → List (List Conn)
  | .timingWheelOnTime _ => push wheelSize buckets
  | .connectEvent c => refresh c buckets
  | .onReadEvent c => if Held buckets c then refresh c buckets else buckets
  | .other _ => buckets

/-- One event. -/
def step (w : Wheel) (e : WheelEvent) : Wheel :=
  { sockets := run Sockets.step w.sockets (toPool e)
    connectionBuckets := turn w.connectionBuckets e
    context := match e with
      | .connectEvent c => c.id :: w.context
      | _ => w.context }

/-- What can happen: a tick destroys what the dropped bucket alone has, a
connection is read when the server has accepted it, and entries are made and
destroyed by the wheel only. -/
def Allowed (w : Wheel) : WheelEvent → Prop
  | .timingWheelOnTime gone => gone.Perm (expiring wheelSize w.connectionBuckets)
  | .connectEvent c => w.sockets.Allowed (.connected c)
  | .onReadEvent c => c ∈ w.sockets.pool.mapConn ∧ c.id ∈ w.context
  | .other (.connected _) | .other (.expire _) => False
  | .other e => w.sockets.Allowed e ∧ w.sockets.Unheld e

/-- The ticks since the last connect or read event of a connection. -/
def sinceActivity (c : Conn) (es : List WheelEvent) : Nat :=
  es.foldl (fun n e => match e with
    | .timingWheelOnTime _ => n + 1
    | .connectEvent d | .onReadEvent d => if d = c then 0 else n
    | .other _ => n) 0

/-- The connection is closed: out of the map and its bufferevent freed. -/
def Closed (w : Wheel) (c : Conn) : Prop := c ∉ w.sockets.pool.mapConn ∧ c.id ∈ w.sockets.freed

/-- The invariant of the wheel after the events `es`: an entry exists as long
as a bucket has it, its age is the number of ticks since its connection was
active, and an open connection has one as soon as the server has accepted it. -/
structure Inv (robots : List Nat) (es : List WheelEvent) (w : Wheel) : Prop where
  sockets : Sockets.Inv robots w.sockets
  ring : w.connectionBuckets ≠ []
  size : w.connectionBuckets.length ≤ wheelSize
  entries : ∀ c, c ∈ w.sockets.pool.entries ↔ Held w.connectionBuckets c
  distinct : w.sockets.pool.entries.Nodup
  objects : ∀ c ∈ w.sockets.pool.entries, c ∈ w.sockets.objects
  age : ∀ c, Held w.connectionBuckets c → Age w.connectionBuckets c (sinceActivity c es)
  accepted : ∀ c ∈ w.sockets.pool.mapConn, c.id ∈ w.context ↔ Held w.connectionBuckets c
  contextOld : ∀ i ∈ w.context, i < w.sockets.pool.created

/-! ## One event -/

/-- A tick makes every connection a tick older. -/
@[simp] theorem sinceActivity_tick (c : Conn) (es : List WheelEvent) (gone : List Conn) :
    sinceActivity c (es ++ [.timingWheelOnTime gone]) = sinceActivity c es + 1 := by
  simp [sinceActivity]

/-- A connect event makes its connection young again. -/
@[simp] theorem sinceActivity_connect (c d : Conn) (es : List WheelEvent) :
    sinceActivity c (es ++ [.connectEvent d]) = if d = c then 0 else sinceActivity c es := by
  simp [sinceActivity]

/-- So does a read event. -/
@[simp] theorem sinceActivity_read (c d : Conn) (es : List WheelEvent) :
    sinceActivity c (es ++ [.onReadEvent d]) = if d = c then 0 else sinceActivity c es := by
  simp [sinceActivity]

@[simp] theorem sinceActivity_other (c : Conn) (es : List WheelEvent) (e : PoolEvent) :
    sinceActivity c (es ++ [.other e]) = sinceActivity c es := by
  simp [sinceActivity]

variable {robots : List Nat} {es : List WheelEvent} {w : Wheel}

/-- The ages after a refresh. -/
theorem age_refresh {bs : List (List Conn)} (hbs : bs ≠ []) (d : Conn) (since : Conn → Nat)
    (hage : ∀ c, Held bs c → Age bs c (since c)) (c : Conn) (hc : Held (refresh d bs) c) :
    Age (refresh d bs) c (if d = c then 0 else since c) := by
  split
  next he =>
    rw [he]
    exact age_refresh_self hbs c
  next hne =>
    rcases (held_refresh hbs c d).mp hc with he | hheld
    · exact absurd he.symm hne
    · exact (hage c hheld).refresh_of_ne (Ne.symm hne)

/-- The ring is never without buckets. -/
theorem refresh_ne_nil {bs : List (List Conn)} (hbs : bs ≠ []) (d : Conn) : refresh d bs ≠ [] := by
  rw [← List.length_pos_iff, length_refresh]
  exact List.length_pos_iff.mpr hbs

/-- A connection that is accepted gets an entry, in the newest bucket. It had
none, so the entry is destroyed only when that bucket is, a whole turn of the
wheel later. -/
theorem Inv.connectEvent (h : Inv robots es w) {c : Conn} (ha : w.Allowed (.connectEvent c)) :
    Inv robots (es ++ [.connectEvent c]) (w.step (.connectEvent c)) := by
  obtain ⟨⟨hin, hnew⟩, htarget⟩ := ha
  have hheld := held_refresh h.ring (y := c)
  have hentries : ∀ x, x ∈ w.sockets.pool.entries ++ [c] ↔ x = c ∨ x ∈ w.sockets.pool.entries := by
    intro x
    rw [List.mem_append, List.mem_singleton, or_comm]
  have hobjects : (w.sockets.step (.connected c)).objects = w.sockets.objects :=
    h.sockets.objects_step fun _ hx => hx
  refine ⟨h.sockets.step ⟨⟨hin, hnew⟩, htarget⟩ trivial, refresh_ne_nil h.ring c, ?_, fun x => ?_,
    ?_, fun x hx => ?_, fun x hx => ?_, fun x hx => ?_, fun i hi => ?_⟩
  · show (refresh c w.connectionBuckets).length ≤ wheelSize
    rw [length_refresh]
    exact h.size
  · show x ∈ w.sockets.pool.entries ++ [c] ↔ Held (refresh c w.connectionBuckets) x
    rw [hentries, hheld, h.entries]
  · show (w.sockets.pool.entries ++ [c]).Nodup
    rw [List.nodup_append]
    refine ⟨h.distinct, List.nodup_singleton c, fun x hx y hy => ?_⟩
    rw [List.mem_singleton.mp hy]
    exact fun he => hnew (he ▸ hx)
  · show x ∈ (w.sockets.step (.connected c)).objects
    rw [hobjects]
    rcases (hentries x).mp hx with rfl | hx
    · exact h.sockets.conns x hin
    · exact h.objects x hx
  · rw [sinceActivity_connect]
    exact age_refresh h.ring c (fun x => sinceActivity x es) h.age x hx
  · show x.id ∈ c.id :: w.context ↔ Held (refresh c w.connectionBuckets) x
    have hx : x ∈ w.sockets.pool.mapConn := hx
    rw [hheld, List.mem_cons, h.accepted x hx]
    constructor
    · intro hor
      exact hor.imp (fun he => List.inj_on_of_nodup_map h.sockets.pool.ids hx hin he) id
    · intro hor
      exact hor.imp (fun he => congrArg Conn.id he) id
  · rcases List.mem_cons.mp hi with rfl | hi
    · exact h.sockets.pool.old c hin
    · exact h.contextOld i hi

/-- A connection that is read has its entry put into the newest bucket as well,
if there still is one. -/
theorem Inv.onReadEvent (h : Inv robots es w) {c : Conn} (ha : w.Allowed (.onReadEvent c)) :
    Inv robots (es ++ [.onReadEvent c]) (w.step (.onReadEvent c)) := by
  obtain ⟨hin, hctx⟩ := ha
  have hheld := (h.accepted c hin).mp hctx
  have hturn : (w.step (.onReadEvent c)).connectionBuckets = refresh c w.connectionBuckets :=
    if_pos hheld
  have hsame : ∀ x, Held (refresh c w.connectionBuckets) x ↔ Held w.connectionBuckets x := by
    intro x
    rw [held_refresh h.ring]
    refine ⟨fun hor => hor.elim (fun he => he ▸ hheld) id, Or.inr⟩
  refine ⟨h.sockets, ?_, ?_, ?_, h.distinct, h.objects, ?_, ?_, h.contextOld⟩
  · rw [hturn]
    exact refresh_ne_nil h.ring c
  · rw [hturn, length_refresh]
    exact h.size
  · intro x
    rw [hturn, hsame]
    exact h.entries x
  · intro x hx
    rw [hturn] at hx ⊢
    rw [sinceActivity_read]
    exact age_refresh h.ring c (fun x => sinceActivity x es) h.age x hx
  · intro x hx
    rw [hturn, hsame]
    exact h.accepted x hx

/-- What else happens to the sockets makes and destroys no entry. A connection
opened by it has not been accepted yet. -/
theorem Inv.other (h : Inv robots es w) {e : PoolEvent} (ha : w.Allowed (.other e)) :
    Inv robots (es ++ [.other e]) (w.step (.other e)) := by
  have hboth : (w.sockets.Allowed e ∧ w.sockets.Unheld e) ∧ (∀ c, e ≠ .connected c) ∧
      ∀ c, e ≠ .expire c := by
    cases e with
    | connected c | expire c => exact absurd ha id
    | addRobot _ _ | eventCb _ | delRobot _ | delRobotAndCloseConnection _ | delaySend _
    | delaySent _ =>
      exact ⟨ha, fun _ he => (nomatch he), fun _ he => (nomatch he)⟩
  obtain ⟨⟨hallowed, hunheld⟩, hc, hx⟩ := hboth
  have hentries := w.sockets.entries_step hc hx
  obtain ⟨hconns, hcreated, -⟩ := w.sockets.step_conns e
  have hobjects : ∀ c ∈ w.sockets.objects, c ∈ (w.sockets.step e).objects :=
    fun c hc => List.mem_append_left _ hc
  refine ⟨h.sockets.step hallowed hunheld, h.ring, h.size, fun c => ?_, ?_, fun c hc => ?_,
    fun c hc => ?_, fun c hc => ?_, fun i hi => Nat.lt_of_lt_of_le (h.contextOld i hi) hcreated⟩
  · show c ∈ (w.sockets.step e).pool.entries ↔ _
    rw [hentries]
    exact h.entries c
  · show (w.sockets.step e).pool.entries.Nodup
    rw [hentries]
    exact h.distinct
  · have hc : c ∈ (w.sockets.step e).pool.entries := hc
    rw [hentries] at hc
    exact hobjects c (h.objects c hc)
  · rw [sinceActivity_other]
    exact h.age c hc
  · show c.id ∈ w.context ↔ Held w.connectionBuckets c
    rcases hconns c hc with hc | hnew
    · exact h.accepted c hc
    · -- a new connection: not accepted yet, and without an entry
      constructor
      · intro hctx
        exact absurd (h.contextOld _ hctx) (Nat.not_lt.mpr hnew)
      · intro hheld
        have hold := h.sockets.old c (h.objects c ((h.entries c).mpr hheld))
        exact absurd hold (Nat.not_lt.mpr hnew)

/-- A tick, for the sockets. -/
theorem Inv.run_tick (h : Inv robots es w) {gone : List Conn}
    (ha : w.Allowed (.timingWheelOnTime gone)) :
    (∀ c, c ∈ gone ↔ Held w.connectionBuckets c ∧ ¬Held (push wheelSize w.connectionBuckets) c) ∧
    let s' := run Sockets.step w.sockets (gone.map .expire)
    Sockets.Inv robots s' ∧ s'.objects = w.sockets.objects ∧ s'.pool.entries.Nodup ∧
    (∀ c, c ∈ s'.pool.entries ↔ c ∈ w.sockets.pool.entries ∧ c ∉ gone) ∧
    (∀ c, c ∈ s'.pool.mapConn ↔ c ∈ w.sockets.pool.mapConn ∧ c ∉ gone) ∧
    (∀ i ∈ w.sockets.freed, i ∈ s'.freed) ∧
    (∀ c ∈ gone, c ∈ w.sockets.pool.mapConn → c.id ∈ s'.freed) ∧
    w.sockets.pool.created ≤ s'.pool.created := by
  have hperm : gone.Perm (expiring wheelSize w.connectionBuckets) := ha
  have hgone : ∀ c, c ∈ gone ↔
      Held w.connectionBuckets c ∧ ¬Held (push wheelSize w.connectionBuckets) c := by
    intro c
    rw [hperm.mem_iff, mem_expiring_iff]
  refine ⟨hgone, Sockets.Inv.run_expire gone h.sockets ?_ (fun c hc => ?_) h.distinct h.objects⟩
  · rw [hperm.nodup_iff]
    exact nodup_expiring _ _
  · exact (h.entries c).mpr ((hgone c).mp hc).1

/-- A tick destroys the entries of the dropped bucket that no other bucket has.
Their connections are closed if they were open, and the ages go up by one. -/
theorem Inv.timingWheelOnTime (h : Inv robots es w) {gone : List Conn}
    (ha : w.Allowed (.timingWheelOnTime gone)) :
    Inv robots (es ++ [.timingWheelOnTime gone]) (w.step (.timingWheelOnTime gone)) := by
  obtain ⟨hgone, hinv, hobjects, hdistinct, hentries, hconns, -, -, hcreated⟩ := h.run_tick ha
  -- what is still held is what was held and is not gone
  have hheld : ∀ c, Held (push wheelSize w.connectionBuckets) c ↔
      Held w.connectionBuckets c ∧ c ∉ gone := by
    intro c
    rw [hgone]
    constructor
    · intro hc
      exact ⟨held_of_push hc, fun hnot => hnot.2 hc⟩
    · intro hc
      by_contra hnot
      exact hc.2 ⟨hc.1, hnot⟩
  refine ⟨hinv, ?_, ?_, fun c => ?_, hdistinct, fun c hc => ?_, fun c hc => ?_, fun c hc => ?_,
    fun i hi => Nat.lt_of_lt_of_le (h.contextOld i hi) hcreated⟩
  · show push wheelSize w.connectionBuckets ≠ []
    rw [← List.length_pos_iff, length_push]
    unfold wheelSize
    omega
  · show (push wheelSize w.connectionBuckets).length ≤ wheelSize
    rw [length_push]
    exact Nat.min_le_left _ _
  · show c ∈ _ ↔ Held (push wheelSize w.connectionBuckets) c
    rw [hheld, ← h.entries]
    exact hentries c
  · show c ∈ (run Sockets.step w.sockets (gone.map .expire)).objects
    rw [hobjects]
    exact h.objects c ((hentries c).mp hc).1
  · have hc : Held (push wheelSize w.connectionBuckets) c := hc
    rw [sinceActivity_tick]
    have hage := h.age c (held_of_push hc)
    refine hage.push ?_
    have hlt := hage.lt_length
    have hsize := h.size
    by_contra hnot
    exact hage.not_held_push (by omega) hc
  · show c.id ∈ w.context ↔ Held (push wheelSize w.connectionBuckets) c
    obtain ⟨hin, hnot⟩ := (hconns c).mp hc
    rw [hheld, h.accepted c hin]
    exact ⟨fun hc => ⟨hc, hnot⟩, fun hc => hc.1⟩

/-- One event of the schedule. -/
theorem Inv.step (h : Inv robots es w) {e : WheelEvent} (ha : w.Allowed e) :
    Inv robots (es ++ [e]) (w.step e) := by
  cases e with
  | timingWheelOnTime gone => exact h.timingWheelOnTime ha
  | connectEvent c => exact h.connectEvent ha
  | onReadEvent c => exact h.onReadEvent ha
  | other e => exact h.other ha

theorem inv_start (robots : List Nat) : Inv robots [] (start robots) := by
  have hnone : ∀ c, ¬Held (start robots).connectionBuckets c := by
    intro c hc
    obtain ⟨b, hb, hx⟩ := hc
    rw [List.mem_singleton.mp hb] at hx
    exact List.not_mem_nil hx
  exact ⟨Sockets.inv_start robots, List.cons_ne_nil _ _, Nat.le_of_ble_eq_true rfl,
    fun c => ⟨fun hc => absurd hc List.not_mem_nil, fun hc => absurd hc (hnone c)⟩, List.nodup_nil,
    fun c hc => absurd hc List.not_mem_nil, fun c hc => absurd hc (hnone c),
    fun c hc => absurd hc List.not_mem_nil, fun i hi => absurd hi List.not_mem_nil⟩

/-- The invariant after a whole schedule, with the ages counted in the schedule
itself. -/
theorem inv_run (ha : Along step Allowed (start robots) es) :
    Inv robots es (run step (start robots) es) :=
  ha.history (Inv robots) (inv_start robots) fun _ _ _ h hallowed => h.step hallowed

/-! ## The timeout -/

/-- A cleared `bev_` stays cleared in a run. -/
theorem bev_run (es : List WheelEvent) : ∀ (w : Wheel) (i : Nat), i < w.sockets.pool.created →
    w.sockets.pool.bev i = false → (run step w es).sockets.pool.bev i = false := by
  have hpool : ∀ (es : List PoolEvent) (s : Sockets) (i : Nat), i < s.pool.created →
      s.pool.bev i = false → i < (run Sockets.step s es).pool.created ∧
        (run Sockets.step s es).pool.bev i = false := by
    intro es
    induction es with
    | nil => intro s i hi hb; exact ⟨hi, hb⟩
    | cons e es ih =>
      intro s i hi hb
      obtain ⟨-, hcreated, hbev⟩ := s.step_conns e
      exact ih (s.step e) i (Nat.lt_of_lt_of_le hi hcreated) (hbev i hi hb)
  induction es with
  | nil => intro w i _ hb; exact hb
  | cons e es ih =>
    intro w i hi hb
    obtain ⟨hi', hb'⟩ := hpool (toPool e) w.sockets i hi hb
    exact ih (w.step e) i hi' hb'

/-- `CloseConnection` leaves `bev_` cleared. -/
theorem bev_closeConnection (p : Pool) (c : Conn) {e : PoolEvent}
    (he : e = .delRobot c ∨ e = .delRobotAndCloseConnection c) : (p.step e).bev c.id = false := by
  rcases he with rfl | rfl
  · show (p.delRobot c).bev c.id = false
    unfold Pool.delRobot
    split
    next => exact Function.update_self ..
    next hb => exact Bool.not_eq_true _ ▸ hb
  · show (p.delRobotAndCloseConnection c).bev c.id = false
    unfold Pool.delRobotAndCloseConnection
    split
    next => exact Function.update_self ..
    next hb => exact Bool.not_eq_true _ ▸ hb

/-- The entry of a connection whose `bev_` is cleared just goes. -/
theorem expire_cleared {p : Pool} {c : Conn} (hb : p.bev c.id = false) :
    p.expire c = { p with entries := p.entries.erase c } := by
  unfold Pool.expire Pool.delRobot
  dsimp only
  split
  · rw [hb, if_neg Bool.false_ne_true]
  · rfl

/-- What the next tick does to an open connection. -/
theorem Inv.tick_open (h : Inv robots es w) {gone : List Conn}
    (ha : w.Allowed (.timingWheelOnTime gone)) {c : Conn} (hc : c ∈ w.sockets.pool.mapConn) :
    (c ∈ gone ↔ c.id ∈ w.context ∧ sinceActivity c es + 1 = 30) ∧
    (c ∈ gone → (w.step (.timingWheelOnTime gone)).Closed c) ∧
    (c ∉ gone → c ∈ (w.step (.timingWheelOnTime gone)).sockets.pool.mapConn) := by
  obtain ⟨hgone, -, -, -, -, hconns, -, hfreed, -⟩ := h.run_tick ha
  refine ⟨?_, fun hin => ⟨fun hin' => ((hconns c).mp hin').2 hin, hfreed c hin hc⟩,
    fun hnot => (hconns c).mpr ⟨hc, hnot⟩⟩
  rw [h.accepted c hc]
  constructor
  · intro hin
    have hheld := ((hgone c).mp hin).1
    have hexpires := mem_expiring_iff.mpr ((hgone c).mp hin)
    exact ⟨hheld, (mem_expiring h.size (h.age c hheld)).mp hexpires⟩
  · intro hthirty
    obtain ⟨hheld, hthirty⟩ := hthirty
    exact (hgone c).mpr (mem_expiring_iff.mp ((mem_expiring h.size (h.age c hheld)).mpr hthirty))

end Wheel

/-- What the wheel does in and after the schedule `es`. An open connection is
closed by its entry at the next tick just when this is the thirtieth since it
was active, and stays open at every other; a connection active at least once
every 29 ticks is closed by no tick; and the entry of a connection that a
handler closed expires without any action. -/
structure IdleTimeout (robots : List Nat) (es : List WheelEvent) : Prop where
  closes : ∀ gone, (run Wheel.step (.start robots) es).Allowed (.timingWheelOnTime gone) →
    ∀ c ∈ (run Wheel.step (.start robots) es).sockets.pool.mapConn,
      (c ∈ gone ∧ (run Wheel.step (.start robots) (es ++ [.timingWheelOnTime gone])).Closed c ↔
        c.id ∈ (run Wheel.step (.start robots) es).context ∧ Wheel.sinceActivity c es + 1 = 30)
  stays : ∀ gone, (run Wheel.step (.start robots) es).Allowed (.timingWheelOnTime gone) →
    ∀ c ∈ (run Wheel.step (.start robots) es).sockets.pool.mapConn,
      ¬(c.id ∈ (run Wheel.step (.start robots) es).context ∧ Wheel.sinceActivity c es + 1 = 30) →
      c ∈ (run Wheel.step (.start robots) (es ++ [.timingWheelOnTime gone])).sockets.pool.mapConn
  active : ∀ c, (∀ pre gone, pre ++ [.timingWheelOnTime gone] <+: es →
      Wheel.sinceActivity c pre + 1 ≤ 29) →
    ∀ pre gone, pre ++ [.timingWheelOnTime gone] <+: es →
      c ∈ (run Wheel.step (.start robots) pre).sockets.pool.mapConn →
      c ∈ (run Wheel.step (.start robots) (pre ++ [.timingWheelOnTime gone])).sockets.pool.mapConn
  silent : ∀ c e pre, e = .delRobot c ∨ e = .delRobotAndCloseConnection c →
    pre ++ [.other e] <+: es →
    (run Wheel.step (.start robots) es).sockets.pool.expire c
      = { (run Wheel.step (.start robots) es).sockets.pool with
          entries := (run Wheel.step (.start robots) es).sockets.pool.entries.erase c }

/-- The idle timeout, for every schedule of ticks, connect and read events, and
whatever the handlers do to the connections in between. -/
theorem idle_timeout {robots : List Nat} {es : List WheelEvent}
    (ha : Along Wheel.step Wheel.Allowed (.start robots) es) : IdleTimeout robots es := by
  have htick : ∀ (pre : List WheelEvent) (gone : List Conn),
      run Wheel.step (.start robots) (pre ++ [.timingWheelOnTime gone])
        = (run Wheel.step (.start robots) pre).step (.timingWheelOnTime gone) :=
    fun pre gone => run_append _ pre _
  refine ⟨fun gone hallowed c hc => ?_, fun gone hallowed c hc hne => ?_,
    fun c hactive pre gone hpre hc => ?_, fun c e pre he hpre => ?_⟩
  · obtain ⟨hiff, hclosed, -⟩ := (Wheel.inv_run ha).tick_open hallowed hc
    rw [htick, ← hiff]
    exact ⟨fun h => h.1, fun h => ⟨h, hclosed h⟩⟩
  · obtain ⟨hiff, -, hstays⟩ := (Wheel.inv_run ha).tick_open hallowed hc
    rw [htick]
    exact hstays fun hin => hne (hiff.mp hin)
  · have hrun := along_append.mp (ha.start hpre)
    obtain ⟨hiff, -, hstays⟩ := (Wheel.inv_run hrun.1).tick_open hrun.2.1 hc
    rw [htick]
    refine hstays fun hin => ?_
    have hthirty := (hiff.mp hin).2
    have hless := hactive pre gone hpre
    omega
  · -- `bev_` is cleared from the close on
    obtain ⟨rest, hes⟩ := hpre
    have hrun := along_append.mp (ha.start ⟨rest, hes⟩)
    have hinv := Wheel.inv_run hrun.1
    have hallowed : (run Wheel.step (.start robots) pre).sockets.Allowed e := by
      rcases he with rfl | rfl <;> exact hrun.2.1.1
    have hobject : c ∈ (run Wheel.step (.start robots) pre).sockets.objects := by
      rcases he with rfl | rfl <;> exact hallowed.2 c rfl
    have hcreated := ((run Wheel.step (.start robots) pre).sockets.step_conns e).2.1
    have hold := Nat.lt_of_lt_of_le (hinv.sockets.old c hobject) hcreated
    have hclear := Wheel.bev_closeConnection
      (run Wheel.step (.start robots) pre).sockets.pool c he
    have hbev := Wheel.bev_run rest
      ((run Wheel.step (.start robots) pre).step (.other e)) c.id hold hclear
    apply Wheel.expire_cleared
    rw [← hes, run_append, run_append]
    exact hbev

instance (w : Wheel) (e : WheelEvent) : Decidable (w.Allowed e) :=
  match e with
  | .timingWheelOnTime gone =>
    inferInstanceAs (Decidable (gone.Perm (expiring wheelSize w.connectionBuckets)))
  | .connectEvent c => inferInstanceAs (Decidable (w.sockets.Allowed (.connected c)))
  | .onReadEvent _ => inferInstanceAs (Decidable (_ ∈ _ ∧ _ ∈ _))
  | .other (.connected _) | .other (.expire _) => inferInstanceAs (Decidable False)
  | .other (.addRobot n fds) =>
    inferInstanceAs (Decidable (w.sockets.Allowed (.addRobot n fds) ∧ w.sockets.Unheld _))
  | .other (.eventCb fd) =>
    inferInstanceAs (Decidable (w.sockets.Allowed (.eventCb fd) ∧ w.sockets.Unheld _))
  | .other (.delRobot c) =>
    inferInstanceAs (Decidable (w.sockets.Allowed (.delRobot c) ∧ w.sockets.Unheld _))
  | .other (.delRobotAndCloseConnection c) =>
    inferInstanceAs (Decidable (w.sockets.Allowed (.delRobotAndCloseConnection c) ∧ _))
  | .other (.delaySend c) =>
    inferInstanceAs (Decidable (w.sockets.Allowed (.delaySend c) ∧ w.sockets.Unheld _))
  | .other (.delaySent c) =>
    inferInstanceAs (Decidable (w.sockets.Allowed (.delaySent c) ∧ w.sockets.Unheld _))

/-- Robot 7 connects, is read after two ticks and then says nothing for 29. -/
def quietSchedule : List WheelEvent :=
  [.other (.addRobot 1 [some 5]), .connectEvent ⟨0, 5, 7⟩, .timingWheelOnTime [],
    .timingWheelOnTime [], .onReadEvent ⟨0, 5, 7⟩] ++ List.replicate 29 (.timingWheelOnTime [])

/-- The next tick closes its connection. -/
theorem idle_timeout_quiet : IdleTimeout [7] quietSchedule :=
  idle_timeout (by decide +kernel)

end RobotDdz.Net
