import RobotDdz.Net.Decode
import Mathlib.Data.List.Nodup

/-!
# The configuration of the client

`CConfAccess::Load` reads the members of the configuration from the program's
part of a JSON document, section by section. It insists on the keys of
every section that is there, not on the sections and not on the types of the values.
A member it does not read stays as `new` left it: an empty string, or a number
or switch that was never set.

`load_same_iff`: an accepted document says what every member is exactly when it
has all the sections that numbers and switches are read from, with values of
their types. `start_iff`: which documents start the client with given robots,
whatever the unset members hold.

A document is read member by member, so everything is reduced to one member:
what `Load` writes to it (`Kind.read`) and whether that is what the document
says. A number that does not fit an `int` or a switch that is no boolean is
reported and passed over, which is the same as a section that is missing: the
member stays unset.

Mirroring notes vs `confaccess.cpp`:
- The sections of the program's part are `server`, `robot`, `game`, `switch`
  and `timer`. The first of several with one name counts.
- A key that is missing in a section that is there ends `Load` with `false`.
-/

namespace RobotDdz.Net

/-- A JSON value; `int` is a number that `IsInt` holds of, an `int`, and
`number` any other. -/
inductive Json where
  | null
  | bool (b : Bool)
  | int (i : Int)
  | number
  | string (s : String)
  | array
  | object (members : List (String × Json))

namespace Config

/-- The types of the members of a `CConfAccess`. -/
inductive Kind where
  | int
  | bool
  | string
deriving DecidableEq, Repr

/-- The values of a type. -/
abbrev Kind.Val : Kind → Type
  | .int => Int
  | .bool => Bool
  | .string => String

/-- `GetString()` in a `std::string`: it comes as a `const char *` and ends at
the first NUL. -/
def getString (s : String) : String :=
  String.ofList (s.toList.takeWhile fun c => c ≠ Char.ofNat 0)

/-- What a JSON value is read as, if its type is the member's: `IsInt`,
`IsBool`, `IsString`. -/
def Kind.read : (k : Kind) → Json → Option k.Val
  | .int, .int i => some i
  | .bool, .bool b => some b
  | .string, .string s => some (getString s)
  | _, _ => none

/-- What `new` leaves of the memory: a string is empty, the rest is not set. -/
def Kind.unset : (k : Kind) → k.Val → k.Val
  | .int, i => i
  | .bool, b => b
  | .string, _ => ""

/-- The members of a `CConfAccess`. -/
inductive Member where
  | strIp
  | iPort
  | iRobotIQLevel
  | iRobotIdStart
  | iRobotIdEnd
  | iRobotNum
  | strRoomName
  | strType
  | strSessionKey
  | iMatchId
  | strName
  | iMinPlayerNum
  | iPlayerNum
  | strLogConf
  | bIsMatch
  | bIsCheckKeepPlay
  | iHeartBeatTime
  | iActiveMsgDelay
  | iPassiveMsgDelay
  | iRoomState
deriving DecidableEq, Repr

namespace Member

def kind : Member → Kind
  | strIp | strRoomName | strType | strSessionKey | strName | strLogConf => .string
  | bIsMatch | bIsCheckKeepPlay => .bool
  | _ => .int

/-- The key a member is read from. -/
def key : Member → String
  | strIp => "ip"
  | iPort => "port"
  | iRobotIQLevel => "IQLevel"
  | iRobotIdStart => "robotIdStart"
  | iRobotIdEnd => "robotIdEnd"
  | iRobotNum => "robotNum"
  | strRoomName => "room_name"
  | strType => "type"
  | strSessionKey => "sessionKey"
  | iMatchId => "matchid"
  | strName => "name"
  | iMinPlayerNum => "minPlayerNum"
  | iPlayerNum => "playerNum"
  | strLogConf => "logConf"
  | bIsMatch => "isMatch"
  | bIsCheckKeepPlay => "isCheckKeepPlay"
  | iHeartBeatTime => "heartBeat"
  | iActiveMsgDelay => "activeMsgDelay"
  | iPassiveMsgDelay => "passiveMsgDelay"
  | iRoomState => "roomstate"

end Member

/-- The sections in the order in which they are read, with their members. -/
def sections : List (String × List Member) :=
  [("server", [.strIp, .iPort]),
    ("robot", [.iRobotIQLevel, .iRobotIdStart, .iRobotIdEnd, .iRobotNum]),
    ("game", [.strRoomName, .strType, .strSessionKey, .iMatchId, .strName, .iMinPlayerNum,
      .iPlayerNum, .strLogConf]),
    ("switch", [.bIsMatch, .bIsCheckKeepPlay]),
    ("timer", [.iHeartBeatTime, .iActiveMsgDelay, .iPassiveMsgDelay, .iRoomState])]

/-- `CConfAccess`. -/
abbrev CConfAccess := (x : Member) → x.kind.Val

/-- `new CConfAccess()` in some memory. -/
def new (memory : CConfAccess) : CConfAccess := fun x => x.kind.unset (memory x)

/-- `FindMember`, with the first of several members of a name; `none` is the
assertion that fails on a value that is no object. -/
def findMember : Json → String → Option (Option Json)
  | .object members, name => some ((members.find? (·.1 = name)).map Prod.snd)
  | _, _ => none

/-- A member is set if the value has its type. -/
def setMember (c : CConfAccess) (x : Member) (value : Json) : CConfAccess :=
  match x.kind.read value with
  | some v => Function.update c x v
  | none => c

/-- The keys of a section, up to the first that is missing. `none` is a failed
assertion. -/
def loadMembers (section' : Json) : List Member → CConfAccess → Option (Bool × CConfAccess)
  | [], c => some (true, c)
  | x :: xs, c =>
    match findMember section' x.key with
    | none => none
    | some none => some (false, c)
    | some (some value) => loadMembers section' xs (setMember c x value)

/-- The sections that are there. -/
def loadSections (root : Json) :
    List (String × List Member) → CConfAccess → Option (Bool × CConfAccess)
  | [], c => some (true, c)
  | (name, xs) :: rest, c =>
    match findMember root name with
    | none => none
    | some none => loadSections root rest c
    | some (some section') =>
      match loadMembers section' xs c with
      | some (true, c) => loadSections root rest c
      | r => r

/-- `CConfAccess::Load` of a file that is there; the document is `none` where
it does not parse. -/
def load (document : Option Json) (programName : String) (c : CConfAccess) :
    Option (Bool × CConfAccess) :=
  match document with
  | none => some (false, c)
  | some document =>
    match findMember document programName with
    | none => none
    | some none => some (false, c)
    | some (some root) => loadSections root sections c

/-! ## What is accepted -/

/-- The sections that are there have their keys. -/
def HasKeys (root : Json) (ss : List (String × List Member)) : Prop :=
  ∀ s ∈ ss, findMember root s.1 = some none ∨
    ∃ section', findMember root s.1 = some (some section') ∧
      ∀ x ∈ s.2, ∃ value, findMember section' x.key = some (some value)

/-- The documents that `Load` accepts. -/
def Accepted (document : Option Json) (programName : String) : Prop :=
  ∃ d root, document = some d ∧ findMember d programName = some (some root) ∧
    HasKeys root sections

/-- What the part of a program says a member of a section is. -/
def valueIn (root : Json) (name : String) (x : Member) : Option x.kind.Val :=
  (findMember root name).join.bind fun section' =>
    (findMember section' x.key).join.bind x.kind.read

/-- What a document says a member is, if anything. -/
def valueOf (document : Option Json) (programName : String) (x : Member) : Option x.kind.Val :=
  document.bind fun d => (findMember d programName).join.bind fun root =>
    (sections.find? (x ∈ ·.2)).bind fun s => valueIn root s.1 x

/-- The members after an accepted document. -/
def loaded (document : Option Json) (programName : String) (c : CConfAccess) : CConfAccess :=
  fun x => (valueOf document programName x).getD (c x)

theorem setMember_apply (c : CConfAccess) (x : Member) (value : Json) (y : Member) :
    setMember c x value y = if x = y then (y.kind.read value).getD (c y) else c y := by
  unfold setMember
  by_cases h : x = y
  · subst h
    rw [if_pos rfl]
    cases x.kind.read value with
    | none => rfl
    | some v => exact Function.update_self ..
  · rw [if_neg h]
    cases x.kind.read value with
    | none => rfl
    | some v => exact Function.update_of_ne (Ne.symm h) ..

/-- What a section is read as, if all its keys are there: a member of it has
the value that is of its type, or what it had before, and the others stay. -/
theorem loadMembers_true (section' : Json) : ∀ (xs : List Member) (c c' : CConfAccess),
    loadMembers section' xs c = some (true, c') ↔
      (∀ x ∈ xs, ∃ value, findMember section' x.key = some (some value)) ∧
      ∀ y, c' y = if y ∈ xs then
        ((findMember section' y.key).join.bind y.kind.read).getD (c y) else c y := by
  intro xs
  induction xs with
  | nil =>
    intro c c'
    simp only [loadMembers, Option.some.injEq, Prod.mk.injEq, true_and, List.not_mem_nil,
      false_implies, implies_true, if_false]
    exact ⟨fun h y => congrFun h.symm y, fun h => (funext h).symm⟩
  | cons x xs ih =>
    intro c c'
    unfold loadMembers
    split
    next hfind => simp [hfind]
    next hfind => simp [hfind]
    next value hfind =>
      rw [ih]
      simp only [List.forall_mem_cons, hfind, Option.some.injEq, exists_eq', true_and]
      refine and_congr_right fun _ => forall_congr' fun y => ?_
      rw [setMember_apply]
      by_cases hx : x = y
      · subst hx
        simp only [List.mem_cons, true_or, if_true, hfind, Option.join_some, Option.bind_some]
        -- a second read of the member gives the same value
        split
        · cases x.kind.read value <;> simp
        · rfl
      · rw [if_neg hx]
        simp only [List.mem_cons, Ne.symm hx, false_or]

/-- What the program's part is read as, section by section. No member is in two
sections, so a later section leaves what an earlier one has read. -/
theorem loadSections_true (root : Json) : ∀ (ss : List (String × List Member)) (c c' : CConfAccess),
    (ss.flatMap Prod.snd).Nodup → (loadSections root ss c = some (true, c') ↔
      HasKeys root ss ∧ ∀ y, c' y
        = ((ss.find? (y ∈ ·.2)).bind fun s => valueIn root s.1 y).getD (c y)) := by
  intro ss
  induction ss with
  | nil =>
    intro c c' _
    simp only [loadSections, Option.some.injEq, Prod.mk.injEq, true_and, HasKeys, List.not_mem_nil,
      false_implies, implies_true, List.find?_nil, Option.bind_none, Option.getD_none]
    exact ⟨fun h y => congrFun h.symm y, fun h => (funext h).symm⟩
  | cons s ss ih =>
    intro c c' hnodup
    obtain ⟨name, xs⟩ := s
    rw [List.flatMap_cons, List.nodup_append] at hnodup
    obtain ⟨-, hrest, hdisj⟩ := hnodup
    have hlater : ∀ y ∈ xs, ss.find? (y ∈ ·.2) = none := by
      intro y hy
      refine List.find?_eq_none.mpr fun t ht hmem => ?_
      exact hdisj y hy y (List.mem_flatMap.mpr ⟨t, ht, of_decide_eq_true hmem⟩) rfl
    unfold loadSections
    split
    next hfind =>
      refine iff_of_false nofun fun h => ?_
      rcases h.1 _ List.mem_cons_self with hh | ⟨_, hh, -⟩ <;> simp [hfind] at hh
    next hfind =>
      rw [ih c c' hrest]
      refine and_congr ?_ (forall_congr' fun y => ?_)
      · simp [HasKeys, hfind]
      · by_cases hy : y ∈ xs
        · simp [hy, hlater y hy, valueIn, hfind]
        · simp [hy]
    next section' hfind =>
      have hmem := loadMembers_true section' xs c
      by_cases hkeys : ∀ x ∈ xs, ∃ value, findMember section' x.key = some (some value)
      · rw [(hmem _).mpr ⟨hkeys, fun _ => rfl⟩]
        dsimp only
        rw [ih _ c' hrest]
        refine and_congr ?_ (forall_congr' fun y => ?_)
        · unfold HasKeys
          rw [List.forall_mem_cons]
          exact ⟨fun h => ⟨.inr ⟨section', hfind, hkeys⟩, h⟩, And.right⟩
        · by_cases hy : y ∈ xs
          · simp [hy, hlater y hy, valueIn, hfind]
          · simp [hy]
      · refine iff_of_false (fun h => ?_) fun h => hkeys ?_
        · split at h
          next c₁ hload => exact hkeys ((hmem c₁).mp hload).1
          next hnot => exact hnot _ h
        · rcases h.1 _ List.mem_cons_self with hh | ⟨_, hh, hall⟩
          · simp [hfind] at hh
          · rw [hfind] at hh
            cases hh
            exact hall

theorem sections_nodup : (sections.flatMap Prod.snd).Nodup := by decide

/-- An accepted document sets the members it has values of the right type for. -/
theorem load_true (document : Option Json) (programName : String) (c c' : CConfAccess) :
    load document programName c = some (true, c') ↔
      Accepted document programName ∧ c' = loaded document programName c := by
  rw [funext_iff]
  unfold load Accepted loaded valueOf
  split
  · simp
  next d =>
    split
    next hfind => simp [hfind]
    next hfind => simp [hfind]
    next root hfind =>
      rw [loadSections_true root sections c c' sections_nodup]
      simp [hfind]

/-- Memory that holds nothing but zeros. -/
def zeroed : CConfAccess := fun x =>
  match x.kind with
  | .int => (0 : Int)
  | .bool => false
  | .string => ""

/-- What an unset number or switch is depends on the memory. -/
theorem exists_memory {x : Member} (hx : x.kind ≠ .string) :
    ∃ memory : CConfAccess, new memory x ≠ new zeroed x := by
  suffices h : ∃ v : x.kind.Val, x.kind.unset v ≠ new zeroed x by
    obtain ⟨v, hv⟩ := h
    refine ⟨Function.update zeroed x v, ?_⟩
    unfold new
    rwa [Function.update_self]
  unfold new zeroed
  generalize x.kind = k at hx
  cases k with
  | int => exact ⟨(1 : Int), by decide⟩
  | bool => exact ⟨true, by decide⟩
  | string => exact absurd rfl hx

theorem new_string {x : Member} (hx : x.kind = .string) (memory memory' : CConfAccess) :
    new memory x = new memory' x := by
  unfold new
  generalize memory x = v
  generalize memory' x = v'
  revert v v'
  rw [hx]
  intro v v'
  rfl

/-- A document that is accepted says what the members are, whatever the memory
held, exactly when it has a value of its type for every member but the strings. -/
theorem load_same_iff {document : Option Json} {programName : String}
    (h : Accepted document programName) :
    (∀ memory memory', load document programName (new memory)
        = load document programName (new memory')) ↔
      ∀ x : Member, x.kind ≠ .string → ∃ v, valueOf document programName x = some v := by
  have hload : ∀ memory, load document programName (new memory)
      = some (true, loaded document programName (new memory)) :=
    fun memory => (load_true _ _ _ _).mpr ⟨h, rfl⟩
  constructor
  · intro hsame x hx
    obtain ⟨memory, hne⟩ := exists_memory hx
    refine Option.ne_none_iff_exists'.mp fun hnone => hne ?_
    have heq := hsame memory zeroed
    rw [hload, hload, Option.some.injEq, Prod.mk.injEq] at heq
    have hx' := congrFun heq.2 x
    unfold loaded at hx'
    rwa [hnone, Option.getD_none, Option.getD_none] at hx'
  · intro hall memory memory'
    rw [hload, hload]
    congr 2
    funext y
    unfold loaded
    by_cases hy : y.kind = .string
    · rw [new_string hy memory memory']
    · obtain ⟨v, hv⟩ := hall y hy
      rw [hv, Option.getD_some, Option.getD_some]

/-- A configuration with one game of three robots. -/
def oneGame : Json := .object [("game1", .object [
  ("server", .object [("ip", .string "192.168.1.88"), ("port", .int 4001)]),
  ("robot", .object [("IQLevel", .int 2), ("robotIdStart", .int 110001),
    ("robotIdEnd", .int 110100), ("robotNum", .int 3)]),
  ("switch", .object [("isMatch", .bool false), ("isCheckKeepPlay", .bool true)]),
  ("game", .object [("room_name", .string ""), ("type", .string "ddz"),
    ("sessionKey", .string "session_"), ("matchid", .int 1),
    ("name", .string "org_ddz_game_cj_01"), ("minPlayerNum", .int 1), ("playerNum", .int 3),
    ("logConf", .string "../configure/game1.properties")]),
  ("timer", .object [("heartBeat", .int 30), ("activeMsgDelay", .int 6),
    ("passiveMsgDelay", .int 3), ("roomstate", .int 3)])])]

theorem accepted_oneGame : Accepted (some oneGame) "game1" :=
  ((load_true (some oneGame) "game1" (new zeroed) _).mp rfl).1

/-- Nothing is left to the memory. -/
theorem load_same_iff_oneGame :
    (∀ memory memory', load (some oneGame) "game1" (new memory)
        = load (some oneGame) "game1" (new memory')) ∧
      valueOf (some oneGame) "game1" .iPassiveMsgDelay = some (3 : Int) := by
  refine ⟨(load_same_iff accepted_oneGame).mpr fun x _ => ?_, rfl⟩
  cases x <;> exact ⟨_, rfl⟩

/-! ## The start of the program -/

def getIQLevel (c : CConfAccess) : Int := c .iRobotIQLevel

def getRobotIdRangeStart (c : CConfAccess) : Int := c .iRobotIdStart

def getRobotIdRangeEnd (c : CConfAccess) : Int := c .iRobotIdEnd

def getRobotNum (c : CConfAccess) : Int := c .iRobotNum

/-- The robots of the program: the header robot and the task robots with their
levels. -/
structure Robots where
  headerRobotId : Int
  taskRobotList : List (Int × Int)
deriving DecidableEq, Repr

/-- The part of `initParam` that makes the robots. `none` where it makes none,
and where `robotIdStart + robotNum_` is beyond the range of `int`. -/
def initParam (c : CConfAccess) : Option Robots :=
  let robotNum := getRobotNum c
  let robotIdStart := getRobotIdRangeStart c
  let robotIdEnd := getRobotIdRangeEnd c
  if robotIdStart ≤ 0 ∨ robotIdEnd ≤ 0 ∨ robotNum ≤ 0 then none
  else if robotIdEnd < robotIdStart then none
  else
    let robotNum :=
      if robotIdEnd - robotIdStart < robotNum then robotIdEnd - robotIdStart + 1 else robotNum
    if 1 = robotNum then some ⟨robotIdStart, []⟩
    else if (intMax : Int) < robotIdStart + robotNum then none
    else
      let taskRobotIdStart := robotIdStart + 1
      let taskRobotIdEnd := robotIdStart + robotNum - 1
      some ⟨robotIdStart, (List.range (taskRobotIdEnd - taskRobotIdStart + 1).toNat).map
        fun index : Nat => (taskRobotIdStart + index, getIQLevel c)⟩

/-- The robots that `main` starts with, in some memory. -/
def start (memory : CConfAccess) (document : Option Json) (programName : String) :
    Option Robots :=
  match load document programName (new memory) with
  | some (true, c) => initParam c
  | _ => none

/-- How many robots there are: as many as asked for and as there are ids. -/
def robotCount (robotIdStart robotIdEnd robotNum : Int) : Int :=
  min robotNum (robotIdEnd - robotIdStart + 1)

/-- The task robots come after the header robot and are all of one level. -/
def taskRobots (robotIdStart count robotIQLevel : Int) : List (Int × Int) :=
  (List.range (count - 1).toNat).map fun index : Nat => (robotIdStart + 1 + index, robotIQLevel)

/-- Numbers that robots can be made of. -/
structure Makes (robotIdStart robotIdEnd robotNum : Int) : Prop where
  start : 0 < robotIdStart
  le : robotIdStart ≤ robotIdEnd
  num : 0 < robotNum
  range : robotCount robotIdStart robotIdEnd robotNum = 1 ∨
    robotIdStart + robotCount robotIdStart robotIdEnd robotNum ≤ intMax

theorem Makes.one_le_count {s e n : Int} (h : Makes s e n) : 1 ≤ robotCount s e n := by
  obtain ⟨_, _, _, -⟩ := h
  unfold robotCount
  omega

theorem initParam_iff {c : CConfAccess} {s e n level : Int} (hs : getRobotIdRangeStart c = s)
    (he : getRobotIdRangeEnd c = e) (hn : getRobotNum c = n) (hlevel : getIQLevel c = level)
    (r : Robots) :
    initParam c = some r ↔ Makes s e n ∧ r = ⟨s, taskRobots s (robotCount s e n) level⟩ := by
  unfold initParam
  rw [hs, he, hn, hlevel]
  dsimp only
  have hcount : (if e - s < n then e - s + 1 else n) = robotCount s e n := by
    unfold robotCount
    split <;> omega
  rw [hcount]
  split
  next h => exact iff_of_false nofun fun ⟨⟨_, _, _, _⟩, _⟩ => by omega
  next h =>
    split
    next h' => exact iff_of_false nofun fun ⟨⟨_, _, _, _⟩, _⟩ => by omega
    next h' =>
      split
      next hone =>
        have hmakes : Makes s e n := ⟨by omega, by omega, by omega, .inl hone.symm⟩
        rw [← hone]
        simp [hmakes, taskRobots, eq_comm]
      next hmore =>
        split
        next hlarge => exact iff_of_false nofun fun ⟨⟨_, _, _, hr⟩, _⟩ => by omega
        next hsmall =>
          have hmakes : Makes s e n := ⟨by omega, by omega, by omega, .inr (by omega)⟩
          have hlen : s + robotCount s e n - 1 - (s + 1) + 1 = robotCount s e n - 1 := by omega
          rw [hlen, Option.some.injEq, eq_comm]
          exact (and_iff_right hmakes).symm

/-- The program starts when its configuration is accepted and robots can be
made of it. -/
theorem start_eq (memory : CConfAccess) (document : Option Json) (programName : String)
    (r : Robots) : start memory document programName = some r ↔
      Accepted document programName ∧
        initParam (loaded document programName (new memory)) = some r := by
  unfold start
  constructor
  · intro h
    split at h
    next c hload =>
      obtain ⟨haccepted, rfl⟩ := (load_true _ _ _ _).mp hload
      exact ⟨haccepted, h⟩
    next => exact nomatch h
  · rintro ⟨haccepted, h⟩
    rw [(load_true _ _ _ _).mpr ⟨haccepted, rfl⟩]
    exact h

/-- What the document says is read. -/
theorem loaded_of_valueOf {document : Option Json} {programName : String} {x : Member}
    {v : x.kind.Val} (h : valueOf document programName x = some v) (c : CConfAccess) :
    loaded document programName c x = v := by
  unfold loaded
  rw [h]
  rfl

/-- What is read as something else than the memory holds is said. -/
theorem said_of_ne {document : Option Json} {programName : String} {c : CConfAccess} {x : Member}
    (h : loaded document programName c x ≠ c x) :
    ∃ v, valueOf document programName x = some v := by
  refine Option.ne_none_iff_exists'.mp fun hnone => h ?_
  unfold loaded
  rw [hnone]
  rfl

/-- The robots of a document that says their ids and how many there are. -/
theorem start_some_iff {memory : CConfAccess} {document : Option Json} {programName : String}
    {s e n : Int} (hs : valueOf document programName .iRobotIdStart = some s)
    (he : valueOf document programName .iRobotIdEnd = some e)
    (hn : valueOf document programName .iRobotNum = some n) (r : Robots) :
    start memory document programName = some r ↔
      Accepted document programName ∧ Makes s e n ∧
        r = ⟨s, taskRobots s (robotCount s e n)
          (getIQLevel (loaded document programName (new memory)))⟩ :=
  (start_eq ..).trans (and_congr_right fun _ =>
    initParam_iff (c := loaded document programName (new memory)) (loaded_of_valueOf hs _)
      (loaded_of_valueOf he _) (loaded_of_valueOf hn _) rfl r)

/-- The levels of task robots are told apart. -/
theorem taskRobots_level {s count level level' : Int} (hcount : 1 < count)
    (h : taskRobots s count level = taskRobots s count level') : level = level' := by
  have hmem : 0 ∈ List.range (count - 1).toNat := List.mem_range.mpr (by omega)
  exact congrArg Prod.snd (List.map_inj_left.mp h 0 hmem)

/-- A document starts the program with given robots, whatever the unset members
hold, exactly when it is accepted, says their ids and how many there are and,
if there are task robots, their level. -/
theorem start_iff (document : Option Json) (programName : String) (r : Robots) :
    (∀ memory, start memory document programName = some r) ↔
      Accepted document programName ∧ ∃ s e n : Int,
        valueOf document programName .iRobotIdStart = some s ∧
        valueOf document programName .iRobotIdEnd = some e ∧
        valueOf document programName .iRobotNum = some n ∧ Makes s e n ∧
        (robotCount s e n = 1 ∧ r = ⟨s, []⟩ ∨
          1 < robotCount s e n ∧ ∃ level : Int,
            valueOf document programName .iRobotIQLevel = some level ∧
            r = ⟨s, taskRobots s (robotCount s e n) level⟩) := by
  constructor
  · intro h
    obtain ⟨haccepted, hzero⟩ := (start_eq ..).mp (h zeroed)
    obtain ⟨hmakes, -⟩ := (initParam_iff rfl rfl rfl rfl r).mp hzero
    refine ⟨haccepted, ?_⟩
    -- a number that is not read would be the memory's zero
    obtain ⟨s, hs⟩ : ∃ s : Int, valueOf document programName .iRobotIdStart = some s :=
      said_of_ne (c := new zeroed) (Int.ne_of_gt hmakes.start)
    obtain ⟨e, he⟩ : ∃ e : Int, valueOf document programName .iRobotIdEnd = some e :=
      said_of_ne (c := new zeroed) (Int.ne_of_gt (lt_of_lt_of_le hmakes.start hmakes.le))
    obtain ⟨n, hn⟩ : ∃ n : Int, valueOf document programName .iRobotNum = some n :=
      said_of_ne (c := new zeroed) (Int.ne_of_gt hmakes.num)
    have hrobots := fun memory => (start_some_iff hs he hn r).mp (h memory)
    obtain ⟨-, hmakes, hr⟩ := hrobots zeroed
    refine ⟨s, e, n, hs, he, hn, hmakes, ?_⟩
    rcases Int.lt_or_eq_of_le hmakes.one_le_count with hmore | hone
    · refine .inr ⟨hmore, ?_⟩
      -- an unset level would be another in another memory
      obtain ⟨level, hlevel⟩ :
          ∃ level : Int, valueOf document programName .iRobotIQLevel = some level := by
        by_contra hnot
        have hunset : ∀ c, loaded document programName c .iRobotIQLevel = c .iRobotIQLevel :=
          fun c => by_contra fun hne => hnot (said_of_ne hne)
        obtain ⟨-, -, hr'⟩ := hrobots (Function.update zeroed .iRobotIQLevel (1 : Int))
        rw [hr, Robots.mk.injEq] at hr'
        have hsame : (0 : Int) = 1 :=
          (hunset _).symm.trans ((taskRobots_level hmore hr'.2).trans (hunset _))
        exact absurd hsame (by decide)
      have hget : getIQLevel (loaded document programName (new zeroed)) = level :=
        loaded_of_valueOf hlevel _
      refine ⟨level, hlevel, ?_⟩
      rw [hr, hget]
    · refine .inl ⟨hone.symm, ?_⟩
      rw [hr, ← hone]
      rfl
  · rintro ⟨haccepted, s, e, n, hs, he, hn, hmakes, hr⟩ memory
    refine (start_some_iff hs he hn r).mpr ⟨haccepted, hmakes, ?_⟩
    rcases hr with ⟨hone, hr⟩ | ⟨-, level, hlevel, hr⟩
    · rw [hr, hone]
      rfl
    · have hget : getIQLevel (loaded document programName (new memory)) = level :=
        loaded_of_valueOf hlevel _
      rw [hr, hget]

example (memory : CConfAccess) : start memory (some oneGame) "game1"
    = some ⟨110001, [(110002, 2), (110003, 2)]⟩ := rfl

end Config

end RobotDdz.Net
