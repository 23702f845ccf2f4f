import Mathlib.Logic.Function.Basic
import Famp.Cli.Send
import Famp.Data.Run

/-!
# The lock of the stop hook

Each identity has a lock file, and a hook parks only while it holds a guard for it.
Any number of processes take the atomic steps of `try_acquire_in` and of the drop of
its guard in any order, and may die between any two of them.  A reclaim removes the
file by its path, whichever file is there by then.
-/

set_option autoImplicit false

namespace Famp.Cli.StopLock

open Cli.Send (trim)
open Data

/-! ## The text of a lock file -/

/-- `parse::<u32>`: digits, after a plus sign or not. -/
def parseU32 (text : List Char) : Option UInt32 :=
  let digits := match text with
    | '+' :: rest => rest
    | chars => chars
  if digits.isEmpty || !digits.all Char.isDigit then none
  else
    let value := Nat.ofDigitChars 10 digits 0
    if value < 2 ^ 32 then some (UInt32.ofNat value) else none

/-- What `writeln!` puts into the file. -/
def pidLine (pid : UInt32) : List Char := Nat.toDigits 10 pid.toNat ++ ['\n']

/-- Whom the text of a lock file names. -/
inductive Holder where
  | nobody
  | process (pid : UInt32)
  | garbage
  deriving DecidableEq, Repr

def holder (text : List Char) : Holder :=
  let s := trim text
  if s.isEmpty then .nobody
  else match parseU32 s with
    | some pid => .process pid
    | none => .garbage

variable {pid other : UInt32} {c : Char}

theorem isDigit_of_mem_digits (member : c ∈ Nat.toDigits 10 pid.toNat) : c.isDigit = true :=
  Nat.isDigit_of_mem_toDigits (by decide) (by decide) member

theorem not_isWhiteSpace_of_isDigit (digit : c.isDigit = true) : isWhiteSpace c = false := by
  have bounds : 48 ≤ c.toNat ∧ c.toNat ≤ 57 := by
    simpa [Char.isDigit, UInt32.le_iff_toNat_le] using digit
  refine not_isWhiteSpace_of_isGraphic ?_
  simp only [isGraphic, Bool.and_eq_true, decide_eq_true_eq]
  omega

theorem dropWhile_digits {digits : List Char} (some : digits ≠ [])
    (all : ∀ c ∈ digits, c.isDigit = true) (rest : List Char) :
    (digits ++ rest).dropWhile isWhiteSpace = digits ++ rest := by
  obtain ⟨first, others, rfl⟩ := List.exists_cons_of_ne_nil some
  rw [List.cons_append, List.dropWhile_cons_of_neg]
  simp [not_isWhiteSpace_of_isDigit (all first List.mem_cons_self)]

theorem trim_pidLine (pid : UInt32) : trim (pidLine pid) = Nat.toDigits 10 pid.toNat := by
  have all : ∀ c ∈ Nat.toDigits 10 pid.toNat, c.isDigit = true := fun c => isDigit_of_mem_digits
  have backwards := dropWhile_digits
    (show (Nat.toDigits 10 pid.toNat).reverse ≠ [] by simp [Nat.toDigits_ne_nil])
    (fun c member => all c (List.mem_reverse.mp member)) []
  have lineEnd : isWhiteSpace '\n' = true := by decide
  rw [List.append_nil] at backwards
  rw [trim, pidLine, dropWhile_digits Nat.toDigits_ne_nil all, List.reverse_append,
    List.reverse_singleton, List.singleton_append, List.dropWhile_cons_of_pos lineEnd, backwards,
    List.reverse_reverse]

theorem parseU32_digits (pid : UInt32) : parseU32 (Nat.toDigits 10 pid.toNat) = some pid := by
  have all : ∀ c ∈ Nat.toDigits 10 pid.toNat, c.isDigit = true := fun c => isDigit_of_mem_digits
  have value : Nat.ofDigitChars 10 (Nat.toDigits 10 pid.toNat) 0 = pid.toNat :=
    Nat.ofDigitChars_toDigits (by decide) (by decide)
  have whole : (Nat.toDigits 10 pid.toNat).all Char.isDigit = true := List.all_eq_true.mpr all
  have unsigned : ∀ rest, Nat.toDigits 10 pid.toNat = '+' :: rest → False := by
    intro rest spelled
    have sign := all '+' (spelled ▸ List.mem_cons_self)
    exact absurd sign (by decide)
  rw [parseU32]
  · simp [Nat.toDigits_ne_nil, whole, value, pid.toNat_lt]
  · exact unsigned

theorem holder_pidLine (pid : UInt32) : holder (pidLine pid) = .process pid := by
  rw [holder, trim_pidLine, parseU32_digits]
  simp [Nat.toDigits_ne_nil]

/-! ## The processes and the file -/

structure LockFile where
  creator : UInt32
  /-- How many files were created before this one. -/
  serial : Nat
  text : List Char
  deriving DecidableEq, Repr

/-- Where a process is in `try_acquire_in`, with the file it has read. -/
inductive Place where
  | idle
  | creating
  | claiming (serial : Nat)
  | reading
  | probing (read : LockFile) (pid : UInt32)
  | checkingGrace (read : Option LockFile)
  | removing (read : Option LockFile)
  | recreating
  | holding
  deriving DecidableEq, Repr

structure LockState where
  alive : UInt32 → Bool
  place : UInt32 → Place
  file : Option LockFile
  created : Nat

inductive LockInput where
  /-- A process takes its next step; `aged` is what the clock says of the file's age. -/
  | next (pid : UInt32) (aged : Bool)
  | die (pid : UInt32)
  deriving DecidableEq, Repr

namespace LockState

def goTo (s : LockState) (pid : UInt32) (place : Place) : LockState :=
  { s with place := Function.update s.place pid place }

/-- `create_new`: the file is created empty unless one is there. -/
def createNew (s : LockState) (pid : UInt32) (taken : Place) : LockState :=
  match s.file with
  | none =>
    { s with file := some ⟨pid, s.created, []⟩, created := s.created + 1 }.goTo pid
      (.claiming s.created)
  | some _ => s.goTo pid taken

/-- The pid goes to the file that was opened, which need not be at the path any more. -/
def writePid (s : LockState) (pid : UInt32) (serial : Nat) : LockState :=
  { s with file := s.file.map fun (f : LockFile) =>
      if f.serial = serial then { f with text := pidLine pid } else f }.goTo pid .holding

def readFile (s : LockState) (pid : UInt32) : LockState :=
  match s.file with
  | none => s.goTo pid (.checkingGrace none)
  | some f => match holder f.text with
    | .nobody => s.goTo pid (.checkingGrace (some f))
    | .process named => s.goTo pid (.probing f named)
    | .garbage => s.goTo pid (.removing (some f))

/-- A file that its live creator has not written yet is never aged out. -/
def lockIsWithinGrace (s : LockState) (aged : Bool) : Bool :=
  match s.file with
  | none => false
  | some f => !aged || (f.text.isEmpty && s.alive f.creator)

def removeFile (s : LockState) : LockState := { s with file := none }

def advance (s : LockState) (pid : UInt32) (aged : Bool) : LockState :=
  match s.place pid with
  | .idle => s.goTo pid .creating
  | .creating => s.createNew pid .reading
  | .claiming serial => s.writePid pid serial
  | .reading => s.readFile pid
  | .probing read named => s.goTo pid (if s.alive named then .idle else .removing (some read))
  | .checkingGrace read =>
    s.goTo pid (if s.lockIsWithinGrace aged then .idle else .removing read)
  | .removing _ => s.removeFile.goTo pid .recreating
  | .recreating => s.createNew pid .idle
  -- the guard is dropped
  | .holding => s.removeFile.goTo pid .idle

def step (s : LockState) : LockInput → LockState
  | .next pid aged => if s.alive pid then s.advance pid aged else s
  | .die pid => { s with alive := Function.update s.alive pid false }

end LockState

/-! ## Exclusion -/

variable {f : LockFile} {place : Place}

namespace LockState

/-- The process is alive and has a guard. -/
def Holds (s : LockState) (pid : UInt32) : Prop :=
  s.alive pid = true ∧ s.place pid = .holding

/-- At most one live process has a guard, and then the lock file names it. -/
def Exclusive (s : LockState) : Prop :=
  (∀ pid other, s.Holds pid → s.Holds other → pid = other) ∧
    ∀ pid, s.Holds pid → ∃ f, s.file = some f ∧ f.text = pidLine pid

/-- Every process is outside `try_acquire_in`, and a lock file that is there was left
by a dead process. -/
structure Fresh (s : LockState) : Prop where
  idle : ∀ pid, s.place pid = .idle
  left : ∀ f, s.file = some f → s.alive f.creator = false ∧ f.serial < s.created

/-- A reclaim removes nothing, the file it read, or the file of a dead process. -/
def careful (s : LockState) : LockInput → Bool
  | .next pid _ => match s.place pid, s.file with
    | .removing read, some f => read == some f || !s.alive f.creator
    | _, _ => true
  | .die _ => true

/-! ### What a place says of the file -/

/-- A file of a live process is still empty or has its pid. -/
def Genuine (s : LockState) (f : LockFile) : Prop :=
  s.alive f.creator = true → f.text = [] ∨ f.text = pidLine f.creator

/-- An empty file that has gone from the path for good. -/
def Gone (s : LockState) (f : LockFile) : Prop :=
  f.text = [] ∧ f.serial < s.created ∧ s.file ≠ some f

def Known (s : LockState) (pid : UInt32) : Place → Prop
  | .claiming serial => s.file = some ⟨pid, serial, []⟩
  | .holding => ∃ serial, s.file = some ⟨pid, serial, pidLine pid⟩
  | .probing read named => s.alive read.creator = true → read.creator = named
  | .checkingGrace (some read) =>
    s.alive read.creator = true → read.text = [] ∧ read.serial < s.created
  | .removing (some read) => s.alive read.creator = true → s.Gone read
  | _ => True

structure Invariant (s : LockState) : Prop where
  file : ∀ f, s.file = some f → s.Genuine f ∧ f.serial < s.created
  known : ∀ pid, s.alive pid = true → s.Known pid (s.place pid)

/-- What a step of one process does to the file and to the others, when it takes no
file away from a live one. -/
structure Moves (s s' : LockState) (pid : UInt32) : Prop where
  alive : ∀ other, s'.alive other = true → s.alive other = true
  created : s.created ≤ s'.created
  others : ∀ other, other ≠ pid → s'.place other = s.place other
  owned : ∀ f, s.file = some f → s.alive f.creator = true → f.creator ≠ pid → s'.file = some f
  file : ∀ f, s'.file = some f → s.file = some f ∨
    (f.creator = pid ∧ f.serial < s'.created ∧
      ((f.text = [] ∧ f.serial = s.created) ∨ f.text = pidLine pid))

variable {s s' : LockState} {pid : UInt32}

theorem pidLine_ne_nil (pid : UInt32) : pidLine pid ≠ [] := by
  simp [pidLine]

theorem Moves.gone (moves : s.Moves s' pid) (gone : s.Gone f) : s'.Gone f := by
  obtain ⟨empty, old, absent⟩ := gone
  refine ⟨empty, lt_of_lt_of_le old moves.created, fun back => ?_⟩
  rcases moves.file f back with same | ⟨-, -, ⟨-, new⟩ | written⟩
  · exact absent same
  · omega
  · exact pidLine_ne_nil pid (written.symm.trans empty)

theorem Moves.genuine (moves : s.Moves s' pid) (inv : s.Invariant) (here : s'.file = some f) :
    s'.Genuine f ∧ f.serial < s'.created := by
  rcases moves.file f here with same | ⟨rfl, fresh, text⟩
  · obtain ⟨genuine, old⟩ := inv.file f same
    exact ⟨fun live => genuine (moves.alive _ live), lt_of_lt_of_le old moves.created⟩
  · exact ⟨fun _ => text.imp_left And.left, fresh⟩

theorem Moves.known (moves : s.Moves s' pid) (apart : other ≠ pid) (live : s.alive other = true)
    (known : s.Known other place) : s'.Known other place := by
  cases place with
  | claiming serial => exact moves.owned _ known live apart
  | holding =>
    obtain ⟨serial, here⟩ := known
    exact ⟨serial, moves.owned _ here live apart⟩
  | probing read named => exact fun live' => known (moves.alive _ live')
  | checkingGrace read =>
    cases read with
    | none => trivial
    | some f =>
      intro live'
      obtain ⟨empty, old⟩ := known (moves.alive _ live')
      exact ⟨empty, lt_of_lt_of_le old moves.created⟩
  | removing read =>
    cases read with
    | none => trivial
    | some f => exact fun live' => moves.gone (known (moves.alive _ live'))
  | idle | creating | reading | recreating => trivial

theorem Invariant.moves (inv : s.Invariant) (pid : UInt32) (moves : s.Moves s' pid)
    (own : s'.alive pid = true → s'.Known pid (s'.place pid)) : s'.Invariant where
  file _ here := moves.genuine inv here
  known other live' := by
    rcases eq_or_ne other pid with rfl | apart
    · exact own live'
    · have live := moves.alive other live'
      rw [moves.others other apart]
      exact moves.known apart live (inv.known other live)

/-! ### What one step keeps -/

@[simp] theorem goTo_place (s : LockState) (pid : UInt32) (place : Place) :
    (s.goTo pid place).place pid = place := by
  simp [goTo]

theorem Known.goTo (known : s.Known pid place) :
    (s.goTo pid place).Known pid ((s.goTo pid place).place pid) := by
  rw [goTo_place]
  cases place with
  | checkingGrace read | removing read => cases read <;> exact known
  | _ => exact known

theorem goTo_moves (s : LockState) (pid : UInt32) (place : Place) :
    s.Moves (s.goTo pid place) pid where
  alive _ live := live
  created := le_rfl
  others other apart := by simp [goTo, apart]
  owned _ here _ _ := here
  file _ here := .inl here

theorem Invariant.goTo (inv : s.Invariant) (known : s.Known pid place) :
    (s.goTo pid place).Invariant :=
  inv.moves pid (goTo_moves s pid place) fun _ => known.goTo

theorem Invariant.createNew (inv : s.Invariant) {taken : Place} (known : s.Known pid taken) :
    (s.createNew pid taken).Invariant := by
  unfold LockState.createNew
  split
  · rename_i absent
    refine inv.moves pid ⟨fun _ live => live, Nat.le_succ _, ?_, ?_, ?_⟩ fun _ => ?_
    · exact fun other apart => by simp [LockState.goTo, apart]
    · simp [absent]
    · intro f here
      cases here
      exact .inr ⟨rfl, Nat.lt_succ_self _, .inl ⟨rfl, rfl⟩⟩
    · rw [goTo_place]
      rfl
  · exact inv.goTo known

theorem Invariant.writePid (inv : s.Invariant) {serial : Nat}
    (known : s.file = some ⟨pid, serial, []⟩) : (s.writePid pid serial).Invariant := by
  have written : (s.writePid pid serial).file = some ⟨pid, serial, pidLine pid⟩ := by
    simp [LockState.writePid, LockState.goTo, known]
  refine inv.moves pid ⟨fun _ live => live, le_rfl, ?_, ?_, ?_⟩ fun _ => ?_
  · exact fun other apart => by simp [LockState.writePid, LockState.goTo, apart]
  · intro f here _ apart
    rw [known] at here
    exact absurd (congrArg LockFile.creator (Option.some.inj here)).symm apart
  · intro f here
    rw [written] at here
    cases here
    exact .inr ⟨rfl, (inv.file _ known).2, .inr rfl⟩
  · rw [LockState.writePid, goTo_place]
    exact ⟨serial, written⟩

theorem Invariant.removeFile (inv : s.Invariant) (known : ∀ s, Known s pid place)
    (ownerless : ∀ f, s.file = some f → s.alive f.creator = true → f.creator = pid) :
    (s.removeFile.goTo pid place).Invariant := by
  refine inv.moves pid ⟨fun _ live => live, le_rfl, ?_, ?_, ?_⟩ fun _ => (known _).goTo
  · exact fun other apart => by simp [LockState.removeFile, LockState.goTo, apart]
  · exact fun f here live apart => absurd (ownerless f here live) apart
  · exact fun f here => nomatch here

theorem Invariant.readFile (inv : s.Invariant) : (s.readFile pid).Invariant := by
  unfold LockState.readFile
  split
  · exact inv.goTo trivial
  · rename_i f here
    obtain ⟨genuine, old⟩ := inv.file f here
    have nobody : holder [] = .nobody := by decide
    split
    · rename_i named
      refine inv.goTo fun live => ⟨?_, old⟩
      rcases genuine live with empty | written
      · exact empty
      · rw [written, holder_pidLine] at named
        cases named
    · rename_i read named
      refine inv.goTo fun live => ?_
      rcases genuine live with empty | written
      · rw [empty, nobody] at named
        cases named
      · rw [written, holder_pidLine] at named
        exact Holder.process.inj named
    · rename_i named
      refine inv.goTo fun live => ?_
      rcases genuine live with empty | written
      · rw [empty, nobody] at named
        cases named
      · rw [written, holder_pidLine] at named
        cases named

theorem gone_of_aged {aged : Bool} (grace : ¬ s.lockIsWithinGrace aged = true)
    (live : s.alive f.creator = true) (known : f.text = [] ∧ f.serial < s.created) : s.Gone f := by
  refine ⟨known.1, known.2, fun here => grace ?_⟩
  simp [lockIsWithinGrace, here, known.1, live]

theorem Invariant.advance (inv : s.Invariant) (live : s.alive pid = true) (aged : Bool)
    (careful : s.careful (.next pid aged) = true) : (s.advance pid aged).Invariant := by
  have known := inv.known pid live
  unfold LockState.advance
  cases place : s.place pid with
  | idle => exact inv.goTo trivial
  | creating => exact inv.createNew trivial
  | claiming serial =>
    rw [place] at known
    exact inv.writePid known
  | reading => exact inv.readFile
  | probing read named =>
    rw [place] at known
    dsimp only
    split
    · exact inv.goTo trivial
    · rename_i dead
      exact inv.goTo fun creatorLive => absurd (known creatorLive ▸ creatorLive) dead
  | checkingGrace read =>
    rw [place] at known
    dsimp only
    split
    · exact inv.goTo trivial
    · rename_i grace
      cases read with
      | none => exact inv.goTo trivial
      | some f =>
        refine inv.goTo fun creatorLive => ?_
        exact gone_of_aged grace creatorLive (known creatorLive)
  | removing read =>
    rw [place] at known
    refine inv.removeFile (fun _ => trivial) fun f here creatorLive => ?_
    simp only [LockState.careful, place, here, Bool.or_eq_true, beq_iff_eq, creatorLive,
      Bool.not_true, Bool.false_eq_true, or_false] at careful
    -- the file that was read has gone, if its creator lives
    subst careful
    exact absurd here (known creatorLive).2.2
  | recreating => exact inv.createNew trivial
  | holding =>
    rw [place] at known
    obtain ⟨serial, own⟩ := known
    refine inv.removeFile (fun _ => trivial) fun f here _ => ?_
    rw [own] at here
    exact (congrArg LockFile.creator (Option.some.inj here)).symm

theorem Invariant.die (inv : s.Invariant) (pid : UInt32) : (s.step (.die pid)).Invariant := by
  have alive : ∀ other, (s.step (.die pid)).alive other = true →
      other ≠ pid ∧ s.alive other = true := by
    intro other live
    rcases eq_or_ne other pid with rfl | apart
    · simp [step] at live
    · exact ⟨apart, by simpa [step, apart] using live⟩
  have moves : s.Moves (s.step (.die pid)) pid :=
    ⟨fun other live => (alive other live).2, le_rfl, fun _ _ => rfl, fun _ here _ _ => here,
      fun _ here => .inl here⟩
  exact inv.moves pid moves fun live => absurd rfl (alive pid live).1

theorem Invariant.step (inv : s.Invariant) (input : LockInput) (careful : s.careful input = true) :
    (s.step input).Invariant := by
  cases input with
  | next pid aged =>
    show (if s.alive pid then s.advance pid aged else s).Invariant
    split
    · exact inv.advance ‹_› aged careful
    · exact inv
  | die pid => exact inv.die pid

theorem Fresh.invariant (fresh : s.Fresh) : s.Invariant where
  file f here := by
    obtain ⟨dead, old⟩ := fresh.left f here
    refine ⟨fun live => ?_, old⟩
    rw [dead] at live
    cases live
  known pid _ := by
    rw [fresh.idle pid]
    trivial

theorem Invariant.exclusive (inv : s.Invariant) : s.Exclusive := by
  have own : ∀ pid, s.Holds pid → ∃ serial, s.file = some ⟨pid, serial, pidLine pid⟩ := by
    rintro pid ⟨live, holding⟩
    have known := inv.known pid live
    rwa [holding] at known
  refine ⟨fun pid other holds holds' => ?_, fun pid holds => ?_⟩
  · obtain ⟨serial, here⟩ := own pid holds
    obtain ⟨serial', here'⟩ := own other holds'
    exact congrArg LockFile.creator (Option.some.inj (here.symm.trans here'))
  · obtain ⟨serial, here⟩ := own pid holds
    exact ⟨_, here, rfl⟩

end LockState

/-! ## Runs -/

/-- Any interleaving of the processes' steps. -/
def lockMachine (start : LockState) : Machine LockState LockInput Unit :=
  .ofFunction (fun s input => ((), s.step input)) start

/-- As long as no reclaim removes the file of a live process that it did not read, at
most one live process holds the lock, and the lock file names it. -/
theorem stop_lock_exclusive {start : LockState} (fresh : start.Fresh)
    {trace : List (Event LockState LockInput Unit)} {s : LockState}
    (run : (lockMachine start).Run trace s)
    (careful : ∀ event ∈ trace, event.before.careful event.input = true) : s.Exclusive := by
  refine LockState.Invariant.exclusive (run.invariant_of_allowed
    (fun event => event.before.careful event.input = true) LockState.Invariant ?_ ?_ careful)
  · rintro s rfl
    exact fresh.invariant
  · intro s input output s' inv allowed taken
    obtain rfl : s.step input = s' := congrArg Prod.snd taken
    exact inv.step input allowed

/-- Processes below the bound live, and the lock file is the given one. -/
def startWith (bound : UInt32) (file : Option LockFile) : LockState where
  alive pid := pid < bound
  place _ := .idle
  file := file
  created := 1

theorem fresh_startWith (bound : UInt32) : (startWith bound none).Fresh where
  idle _ := rfl
  left _ here := nomatch here

theorem fresh_startWith_left {bound : UInt32} (dead : ¬ f.creator < bound) (first : f.serial = 0) :
    (startWith bound (some f)).Fresh where
  idle _ := rfl
  left _ here := by
    cases here
    exact ⟨decide_eq_false dead, first ▸ Nat.zero_lt_one⟩

def lockRun (start : LockState) (inputs : List LockInput) : LockState :=
  stateOf (fun s input => ((), LockState.step s input)) start inputs

def lockEvents (start : LockState) (inputs : List LockInput) :
    List (Event LockState LockInput Unit) :=
  traceOf (fun s input => ((), LockState.step s input)) start inputs

theorem run_lockEvents (start : LockState) (inputs : List LockInput) :
    (lockMachine start).Run (lockEvents start inputs) (lockRun start inputs) :=
  run_traceOf _ start inputs

def nexts (count : Nat) (pid : UInt32) : List LockInput := List.replicate count (.next pid false)

def leftFile : LockFile := ⟨9, 0, pidLine 9⟩

/-- The lock that a dead process left is reclaimed. -/
theorem left_lock_is_reclaimed :
    (lockRun (startWith 4 (some leftFile)) (nexts 7 1)).place 1 = .holding ∧
      (lockRun (startWith 4 (some leftFile)) (nexts 7 1)).Exclusive := by
  refine ⟨by decide, ?_⟩
  exact stop_lock_exclusive (fresh_startWith_left (by decide) rfl)
    (run_lockEvents _ (nexts 7 1)) (by decide)

/-- The second process finds the file of the first, which is dropped before it reads;
it takes the missing file for a stale one, and removes the file of the third. -/
def droppedMeanwhile : List LockInput :=
  nexts 3 1 ++ nexts 2 2 ++ nexts 1 1 ++ nexts 2 2 ++ nexts 3 3 ++ nexts 3 2

def judgedTwice : List LockInput := nexts 4 1 ++ nexts 4 2 ++ nexts 3 1 ++ nexts 3 2

theorem LockState.not_exclusive {s : LockState} (holds : s.Holds pid) (holds' : s.Holds other)
    (apart : pid ≠ other) : ¬ s.Exclusive :=
  fun exclusive => apart (exclusive.1 pid other holds holds')

theorem stop_lock_held_twice :
    ((startWith 4 none).Fresh ∧
      (lockMachine (startWith 4 none)).Run (lockEvents (startWith 4 none) droppedMeanwhile)
        (lockRun (startWith 4 none) droppedMeanwhile) ∧
      ¬ (lockRun (startWith 4 none) droppedMeanwhile).Exclusive) ∧
    (startWith 4 (some leftFile)).Fresh ∧
      (lockMachine (startWith 4 (some leftFile))).Run
        (lockEvents (startWith 4 (some leftFile)) judgedTwice)
        (lockRun (startWith 4 (some leftFile)) judgedTwice) ∧
      ¬ (lockRun (startWith 4 (some leftFile)) judgedTwice).Exclusive := by
  refine ⟨⟨fresh_startWith 4, run_lockEvents _ _, ?_⟩,
    fresh_startWith_left (by decide) rfl, run_lockEvents _ _, ?_⟩
  · have stolen : (lockRun (startWith 4 none) droppedMeanwhile).Holds 3 := by
      constructor <;> decide
    have thief : (lockRun (startWith 4 none) droppedMeanwhile).Holds 2 := by
      constructor <;> decide
    exact LockState.not_exclusive stolen thief (by decide)
  · have first : (lockRun (startWith 4 (some leftFile)) judgedTwice).Holds 1 := by
      constructor <;> decide
    have second : (lockRun (startWith 4 (some leftFile)) judgedTwice).Holds 2 := by
      constructor <;> decide
    exact LockState.not_exclusive first second (by decide)

end Famp.Cli.StopLock
