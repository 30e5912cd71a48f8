import RobotDdz.Lib.FirstFind
import Mathlib.Data.List.DropRight
import Mathlib.Data.List.TakeWhile
import Mathlib.Data.List.Nodup

/-!
# The configuration file of the old client

`CConfAccess::Load` reads a file of sections: `[section]` headers, `key =
value` lines under them and comments from `#`. It keeps no current section. A
header it has not seen makes a new section, one it has seen is skipped, and a
key goes to the section made last. `GetValue` looks for the first key of a
section.

So a section is read as it stands while every header is new
(`readable_of_once`), and a key under a reopened header lands in another
section. `getValue_iff` is the exact condition: of the lines for the key that
stand under the section or come after it was made and before the next was, the
first is both, or the first of each kind carries the same value.

The text is read twice. `placed` goes over its lines and notes for every key
line the header it stands under and the section that was made last, which is
what the file says and what `Load` does. `loadLines_attrs`, by induction on the
lines, is that the sections `Load` leaves are the key lines by the second of
the two, so `GetValue` is a search among the key lines (`load_attrs`).

Mirroring notes vs `confaccess.cpp` of the old client:
- A line is a comment from `#` on. A line with `=` is a key, also where it has
  brackets; only then is a header looked for.
- A key line before any header makes `Load` return `false`.
- `getline` stops at a line that does not fit its buffer of `MAX_LINE`
  characters, and the rest of the file is not read (`getLines`).
- Keys and names are trimmed by `StringUtil::Trim`. A value is what follows the
  first `=`.
-/

namespace RobotDdz.Old

open FirstFind

/-- A `std::string`. -/
abbrev Str := List Char

/-- `MAX_LINE`. -/
def maxLine : Nat := 1024

/-- The blanks that `Trim` takes off. -/
def whiteSpace : Str := [' ', '\t', '\n', '\r']

/-- `StringUtil::Trim`. -/
def trim (s : Str) : Str := (s.dropWhile (· ∈ whiteSpace)).rdropWhile (· ∈ whiteSpace)

/-- A line as `Load` takes it: a key with its value, a header, or nothing. -/
inductive ConfLine where
  | key (k v : Str)
  | header (s : Str)
  | nothing
deriving DecidableEq, Repr

/-- What `Load` makes of a line. The line is a C string, so it ends at a null
character. -/
def readLine (line : Str) : ConfLine :=
  let fullLine := line.takeWhile (· ≠ Char.ofNat 0)
  if fullLine.head? = some '#' then .nothing
  else
    let command := fullLine.takeWhile (· ≠ '#')
    match command.findIdx? (· = '=') with
    | some length => .key (trim (command.take length)) (trim (command.drop (length + 1)))
    | none =>
      match command.findIdx? (· = '['), command.findIdx? (· = ']') with
      | some leftPos, some rightPos =>
        if leftPos < rightPos then
          .header (trim ((command.drop (leftPos + 1)).take (rightPos - leftPos - 1)))
        else .nothing
      | _, _ => .nothing

/-- The lines of a file. -/
def linesOf (text : Str) : List Str := text.splitOn '\n'

/-- The lines that `getline` reads: it fails on a line that does not fit the
buffer. -/
def getLines (text : Str) : List Str := (linesOf text).takeWhile (·.length < maxLine)

/-- `class CSession`. -/
structure CSession where
  session : Str
  attrVct : List (Str × Str) := []
deriving DecidableEq, Repr

/-- The names of the sections, in the order in which they were made. -/
def names (sessionVct : List CSession) : List Str := sessionVct.map CSession.session

/-- One line of `Load`; `none` is a key without a section, where `Load` gives
up. -/
def addLine (sessionVct : List CSession) : ConfLine → Option (List CSession)
  | .key k v =>
    match sessionVct.getLast? with
    | none => none
    | some back =>
      some (sessionVct.dropLast ++ [{ back with attrVct := back.attrVct ++ [(k, v)] }])
  | .header s =>
    if s ∈ names sessionVct then some sessionVct
    else some (sessionVct ++ [{ session := s }])
  | .nothing => some sessionVct

/-- The loop of `Load`: what it returns and the sections it leaves. -/
def loadLines : List CSession → List ConfLine → Bool × List CSession
  | sessionVct, [] => (true, sessionVct)
  | sessionVct, l :: ls =>
    match addLine sessionVct l with
    | none => (false, sessionVct)
    | some sessionVct => loadLines sessionVct ls

/-- `CConfAccess::Load` of a file with this text. -/
def load (programName text : Str) : Bool × List CSession :=
  if programName.length = 0 then (false, []) else loadLines [] ((getLines text).map readLine)

/-- `CConfAccess::GetValue`: what it returns, and `value`. -/
def getValue (sessionVct : List CSession) (session key defaultValue : Str) : Bool × Str :=
  match sessionVct.find? (·.session = session) with
  | none => (false, defaultValue)
  | some ss =>
    match ss.attrVct.find? (·.1 = key) with
    | none => (false, defaultValue)
    | some attr => (true, attr.2)

/-! ## Where a key line stands -/

/-- A key line with the nearest header above it, and the nearest one that is
new. -/
structure Placed where
  under : Option Str
  opened : Option Str
  key : Str
  value : Str

/-- The key lines of a text, after headers that made the sections `made` and
the header `under`. -/
def placed : (made : List Str) → (under : Option Str) → List ConfLine → List Placed
  | _, _, [] => []
  | made, under, .key k v :: ls => ⟨under, made.getLast?, k, v⟩ :: placed made under ls
  | made, _, .header s :: ls => placed (if s ∈ made then made else made ++ [s]) (some s) ls
  | made, under, .nothing :: ls => placed made under ls

/-- The key lines of a text. -/
def keyLines (text : Str) : List Placed := placed [] none ((linesOf text).map readLine)

/-- A line for the key under the section. -/
def Placed.stands (s k : Str) (x : Placed) : Bool := x.under = some s ∧ x.key = k

/-- A line for the key between the header that makes the section and the next
new one. -/
def Placed.follows (s k : Str) (x : Placed) : Bool := x.opened = some s ∧ x.key = k

/-- The value the text gives a key in a section: that of the first line for the
key that stands under it. -/
def valueIn (text s k : Str) : Option Str :=
  ((keyLines text).find? (Placed.stands s k)).map Placed.value

/-- The text has a header before its first key. -/
def headed : List ConfLine → Bool
  | [] => true
  | .key _ _ :: _ => false
  | .header _ :: _ => true
  | .nothing :: ls => headed ls

/-- A text that `Load` takes to its end: no line is too long, and no key comes
before the first header. -/
structure Loadable (text : Str) : Prop where
  short : ∀ line ∈ linesOf text, line.length < maxLine
  headed : headed ((linesOf text).map readLine) = true

/-! ## What `Load` leaves -/

/-- The key lines kept for a section. -/
def attrsOf (sessionVct : List CSession) (s : Str) : List (Str × Str) :=
  ((sessionVct.find? (·.session = s)).map CSession.attrVct).getD []

theorem getValue_eq (sessionVct : List CSession) (s k d : Str) :
    getValue sessionVct s k d
      = ((((attrsOf sessionVct s).find? (·.1 = k)).map Prod.snd).isSome,
        (((attrsOf sessionVct s).find? (·.1 = k)).map Prod.snd).getD d) := by
  unfold getValue attrsOf
  cases sessionVct.find? (·.session = s) with
  | none => rfl
  | some ss =>
    dsimp only [Option.map_some, Option.getD_some]
    cases ss.attrVct.find? (·.1 = k) with
    | none => rfl
    | some attr => rfl

theorem find?_session {sessionVct : List CSession} {s : Str} (h : s ∉ names sessionVct) :
    sessionVct.find? (·.session = s) = none := by
  rw [List.find?_eq_none]
  intro ss hss hs
  exact h (List.mem_map.mpr ⟨ss, hss, of_decide_eq_true hs⟩)

/-- A new section changes no other and is empty. -/
theorem attrsOf_new {sessionVct : List CSession} {s : Str} (h : s ∉ names sessionVct) (x : Str) :
    attrsOf (sessionVct ++ [{ session := s }]) x = attrsOf sessionVct x := by
  unfold attrsOf
  rw [List.find?_append]
  by_cases hx : s = x
  · subst hx
    rw [find?_session h, Option.none_or, List.find?_singleton, if_pos (decide_eq_true rfl)]
    rfl
  · rw [List.find?_singleton, if_neg (by simpa using hx), Option.or_none]

/-- A key goes to the section made last, and no other changes. -/
theorem attrsOf_key {front : List CSession} {back : CSession} (h : back.session ∉ names front)
    (k v x : Str) :
    attrsOf (front ++ [{ back with attrVct := back.attrVct ++ [(k, v)] }]) x
      = attrsOf (front ++ [back]) x ++ if back.session = x then [(k, v)] else [] := by
  unfold attrsOf
  rw [List.find?_append, List.find?_append]
  by_cases hx : back.session = x
  · subst hx
    rw [find?_session h, Option.none_or, Option.none_or, List.find?_singleton,
      List.find?_singleton, if_pos (decide_eq_true rfl), if_pos (decide_eq_true rfl), if_pos rfl]
    rfl
  · rw [List.find?_singleton, List.find?_singleton, if_neg (by simpa using hx),
      if_neg (by simpa using hx), if_neg hx, List.append_nil]

theorem names_concat (front : List CSession) (back : CSession) :
    names (front ++ [back]) = names front ++ [back.session] := List.map_append

theorem addLine_key (front : List CSession) (back : CSession) (k v : Str) :
    addLine (front ++ [back]) (.key k v)
      = some (front ++ [{ back with attrVct := back.attrVct ++ [(k, v)] }]) := by
  rw [addLine, List.getLast?_concat, List.dropLast_concat]

/-- The lines that go to a section, as `Load` keeps them. -/
def attrsIn (s : Str) (xs : List Placed) : List (Str × Str) :=
  (xs.filter (·.opened = some s)).map fun x => (x.key, x.value)

theorem attrsIn_cons (s : Str) (x : Placed) (xs : List Placed) :
    attrsIn s (x :: xs)
      = (if x.opened = some s then [(x.key, x.value)] else []) ++ attrsIn s xs := by
  unfold attrsIn
  by_cases hx : x.opened = some s
  · rw [List.filter_cons_of_pos (by simpa using hx), if_pos hx]
    rfl
  · rw [List.filter_cons_of_neg (by simpa using hx), if_neg hx]
    rfl

/-- `Load` goes to the end once there is a section, and files every key under
the section made last. -/
theorem loadLines_attrs : ∀ (ls : List ConfLine) (sessionVct : List CSession) (under : Option Str),
    (names sessionVct).Nodup → (sessionVct = [] → headed ls = true) →
    (loadLines sessionVct ls).1 = true ∧ ∀ s, attrsOf (loadLines sessionVct ls).2 s
      = attrsOf sessionVct s ++ attrsIn s (placed (names sessionVct) under ls) := by
  intro ls
  induction ls with
  | nil => exact fun sessionVct under _ _ => ⟨rfl, fun s => (List.append_nil _).symm⟩
  | cons l ls ih =>
    intro sessionVct under hn hhead
    rw [loadLines]
    cases l with
    | nothing => exact ih sessionVct under hn hhead
    | header s' =>
      rw [addLine, placed]
      by_cases hmem : s' ∈ names sessionVct
      · rw [if_pos hmem, if_pos hmem]
        refine ih sessionVct (some s') hn fun hnil => ?_
        rw [hnil] at hmem
        exact absurd hmem List.not_mem_nil
      · rw [if_neg hmem, if_neg hmem]
        have hn' : (names (sessionVct ++ [{ session := s' }])).Nodup := by
          rw [names_concat]
          refine List.nodup_append.mpr ⟨hn, List.nodup_singleton _, fun a ha b hb hab => ?_⟩
          rw [hab, List.mem_singleton.mp hb] at ha
          exact hmem ha
        obtain ⟨htrue, hattrs⟩ := ih _ (some s') hn' fun hnil =>
          absurd hnil (List.append_ne_nil_of_right_ne_nil _ (List.cons_ne_nil _ _))
        refine ⟨htrue, fun s => ?_⟩
        rw [hattrs s, attrsOf_new hmem, names_concat]
    | key k v =>
      rcases List.eq_nil_or_concat sessionVct with hnil | ⟨front, back, hback⟩
      · exact absurd (hhead hnil) Bool.false_ne_true
      · rw [List.concat_eq_append] at hback
        subst hback
        rw [addLine_key, placed]
        have hnew : back.session ∉ names front := by
          rw [names_concat] at hn
          exact fun hmem => (List.nodup_append.mp hn).2.2 _ hmem _ (List.mem_singleton_self _) rfl
        have hnames : names (front ++ [{ back with attrVct := back.attrVct ++ [(k, v)] }])
            = names (front ++ [back]) := by
          rw [names_concat, names_concat]
        obtain ⟨htrue, hattrs⟩ := ih (front ++ [{ back with attrVct := back.attrVct ++ [(k, v)] }])
          under (by rw [hnames]; exact hn) fun hnil =>
            absurd hnil (List.append_ne_nil_of_right_ne_nil _ (List.cons_ne_nil _ _))
        refine ⟨htrue, fun s => ?_⟩
        rw [hattrs s, attrsOf_key hnew, hnames, attrsIn_cons, List.append_assoc]
        dsimp only
        rw [names_concat, List.getLast?_concat]
        simp only [Option.some.injEq]

/-- After `Load` a section has the key lines that follow it. -/
theorem load_attrs {programName text : Str} (hname : programName ≠ []) (h : Loadable text) :
    (load programName text).1 = true ∧
      ∀ s, attrsOf (load programName text).2 s = attrsIn s (keyLines text) := by
  have hlines : getLines text = linesOf text :=
    List.takeWhile_eq_self_iff.mpr fun line hline => decide_eq_true (h.short line hline)
  unfold load
  rw [if_neg (List.length_pos_iff.mpr hname).ne', hlines]
  exact loadLines_attrs _ [] none List.nodup_nil fun _ => h.headed

/-- `GetValue` finds the first line for the key that follows the section. -/
theorem find?_attrsIn (s k : Str) (xs : List Placed) :
    ((attrsIn s xs).find? (·.1 = k)).map Prod.snd
      = (xs.find? (Placed.follows s k)).map Placed.value := by
  unfold attrsIn
  rw [List.find?_map, List.find?_filter, Option.map_map]
  refine congrArg (Option.map Placed.value) (congrArg (xs.find? ·) ?_)
  funext x
  simp [Placed.follows]

/-! ## When the two agree -/

/-- The key is read as it stands: of the lines for it that stand under
the section or follow its first header, the first does both, or the first of each
kind has the value of the other. -/
def Readable (text s k : Str) : Prop :=
  FirstAgree (Placed.stands s k) (Placed.follows s k) Placed.value (keyLines text)

instance (text s k : Str) : Decidable (Readable text s k) :=
  inferInstanceAs (Decidable (FirstAgree ..))

/-- After `Load`, `GetValue` returns what the text gives the key in the
section, for every default, exactly when the key is read as it stands: a key
under a reopened header is read elsewhere, and it is that which `Readable`
keeps apart. -/
theorem getValue_iff {programName text : Str} (hname : programName ≠ []) (h : Loadable text)
    (s k : Str) :
    (∀ d, getValue (load programName text).2 s k d
      = ((valueIn text s k).isSome, (valueIn text s k).getD d)) ↔ Readable text s k := by
  rw [Readable, ← firstAgree_iff]
  have hget : ∀ d, getValue (load programName text).2 s k d
      = ((((keyLines text).find? (Placed.follows s k)).map Placed.value).isSome,
        (((keyLines text).find? (Placed.follows s k)).map Placed.value).getD d) := by
    intro d
    rw [getValue_eq, (load_attrs hname h).2, find?_attrsIn]
  rw [← valueIn]
  constructor
  · intro hall
    have hd := hall []
    rw [hget, Prod.mk.injEq] at hd
    obtain ⟨hsome, hval⟩ := hd
    -- the flags tell a line from none, and the values are then those of the lines
    cases hv : valueIn text s k with
    | none =>
      rw [hv] at hsome
      exact (Option.isSome_eq_false_iff.mp hsome |> Option.isNone_iff_eq_none.mp).symm
    | some v =>
      rw [hv] at hsome hval
      obtain ⟨w, hw⟩ := Option.isSome_iff_exists.mp hsome
      rw [hw] at hval ⊢
      exact congrArg some hval.symm
  · intro heq d
    rw [hget, heq]

/-- A file that opens a section again and gives the key the same value there. -/
def repeated : Str := "[a]\nk = 1 # one\n[b]\nk = 2\n[a]\nk = 1\n".toList

theorem repeated_loadable : Loadable repeated := ⟨by decide +kernel, by decide +kernel⟩

/-- The value is found under both sections. -/
theorem getValue_iff_repeated :
    (∀ d, getValue (load ['p'] repeated).2 ['a'] ['k'] d = (true, ['1'])) ∧
      ∀ d, getValue (load ['p'] repeated).2 ['b'] ['k'] d = (true, ['2']) := by
  have hname : (['p'] : Str) ≠ [] := List.cons_ne_nil _ _
  have hread := fun s => (getValue_iff hname repeated_loadable s ['k']).mpr
  have ha : valueIn repeated ['a'] ['k'] = some ['1'] := by decide +kernel
  have hb : valueIn repeated ['b'] ['k'] = some ['2'] := by decide +kernel
  refine ⟨fun d => (hread ['a'] ?_ d).trans ?_, fun d => (hread ['b'] ?_ d).trans ?_⟩
  · decide +kernel
  · rw [ha]
    rfl
  · decide +kernel
  · rw [hb]
    rfl

/-- A file that opens a section again after another. -/
def reopened : Str := "[a]\n[b]\n[a]\nk = v\n".toList

theorem reopened_loadable : Loadable reopened := ⟨by decide +kernel, by decide +kernel⟩

/-- The key stands under the reopened section and is not found there. -/
theorem getValue_reopened_fails :
    ¬∀ (programName text : Str), programName ≠ [] → Loadable text → ∀ s k d : Str,
      getValue (load programName text).2 s k d
        = ((valueIn text s k).isSome, (valueIn text s k).getD d) := by
  intro h
  have hv := h ['p'] reopened (List.cons_ne_nil _ _) reopened_loadable ['a'] ['k'] ['d']
  exact absurd hv (by decide +kernel)

/-! ## Sections that are opened once -/

/-- The headers of a text, in order. -/
def headerNames : List ConfLine → List Str
  | [] => []
  | .header s :: ls => s :: headerNames ls
  | .key _ _ :: ls => headerNames ls
  | .nothing :: ls => headerNames ls

/-- With new headers only, every key line follows the header it stands under,
because that header made the last section. -/
theorem under_eq_opened : ∀ (ls : List ConfLine) (made : List Str),
    (made ++ headerNames ls).Nodup →
    ∀ x ∈ placed made made.getLast? ls, x.under = x.opened := by
  intro ls
  induction ls with
  | nil => exact fun made _ x hx => absurd hx List.not_mem_nil
  | cons l ls ih =>
    intro made hn x hx
    cases l with
    | nothing => exact ih made hn x hx
    | header s =>
      rw [headerNames, ← List.singleton_append, ← List.append_assoc] at hn
      have hs : s ∉ made := by
        intro hmem
        rw [List.append_assoc] at hn
        exact (List.nodup_append.mp hn).2.2 s hmem s
          (List.mem_append_left _ (List.mem_singleton_self s)) rfl
      rw [placed, if_neg hs] at hx
      refine ih (made ++ [s]) hn x ?_
      rwa [List.getLast?_concat]
    | key k v =>
      rcases List.mem_cons.mp hx with rfl | hx
      · rfl
      · exact ih made hn x hx

/-- Every key of a file that opens each section once is read as it stands. -/
theorem readable_of_once {text : Str} (h : (headerNames ((linesOf text).map readLine)).Nodup)
    (s k : Str) : Readable text s k := by
  intro x hx
  have hmem := List.mem_of_find?_eq_some hx
  have hunder : x.under = x.opened := under_eq_opened _ [] h x hmem
  have heither : either (Placed.stands s k) (Placed.follows s k) x = true := List.find?_some hx
  have hsame : x.stands s k = x.follows s k := by
    rw [Placed.stands, Placed.follows, hunder]
  rw [either, hsame, Bool.or_self] at heither
  exact Or.inl ⟨hsame.trans heither, heither⟩

end RobotDdz.Old
