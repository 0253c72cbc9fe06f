/-! Bytes read through a cursor that moves forward and looks nowhere outside of them. Its arithmetic is that of
machine words of 64 bits: a reading whose sum is no word, or whose difference is negative, has no outcome at all. Main
statements: between what was read and the rest, each step takes what stands next or ends there, and the count of what
remains is exact. -/
namespace TlsFixtures

/-- Some bytes, and how many of them have been read. -/
structure Cursor where
  data : List UInt8
  position : Nat
  deriving DecidableEq, Repr

namespace Cursor

variable {ε α β : Type}

/-- What is read from a cursor: a value, or what the bytes were too short for, and the cursor where it stopped.
Nothing if a number on the way is no machine word. -/
abbrev Reading (ε α : Type) := ExceptT ε (StateT Cursor Option) α

def outcome? (reading : Reading ε α) (cursor : Cursor) : Option (Except ε α × Cursor) :=
  reading.run.run cursor

def start (data : List UInt8) : Cursor := ⟨data, 0⟩

def sum? (a b : Nat) : Option Nat := if a + b < UInt64.size then some (a + b) else none

def difference? (a b : Nat) : Option Nat := if b ≤ a then some (a - b) else none

def advance (n : Nat) : Reading ε Unit := do
  let cursor ← get
  set { cursor with position := ← sum? cursor.position n }

def byte (missing : ε) : Reading ε UInt8 := do
  let cursor ← get
  match cursor.data[cursor.position]? with
  | none => throw missing
  | some value =>
    advance 1
    return value

/-- Three bytes at once: where there are fewer, none of them is read. -/
def triple (missing : ε) : Reading ε (UInt8 × UInt8 × UInt8) := do
  let cursor ← get
  let stop ← sum? cursor.position 3
  match cursor.data.extract cursor.position stop with
  | [first, second, third] =>
    advance 3
    return (first, second, third)
  | _ => throw missing

def remaining : Reading ε Nat := do
  let cursor ← get
  difference? cursor.data.length cursor.position

/-- The cursor between what was read and the rest. -/
def between (front rest : List UInt8) : Cursor := ⟨front ++ rest, front.length⟩

variable {reading : Reading ε α} {next : α → Reading ε β} {cursor middle : Cursor} {front rest : List UInt8}
  {value : α} {missing : ε}

@[simp] theorem position_between : (between front rest).position = front.length := rfl

theorem between_append (read : List UInt8) :
    between (front ++ read) rest = ⟨(between front (read ++ rest)).data, front.length + read.length⟩ := by
  simp [between]

theorem extract_between (n : Nat) :
    (between front rest).data.extract front.length (front.length + n) = rest.take n := by
  simp [between, List.extract_eq_take_drop]

theorem outcome?_bind_ok (read : outcome? reading cursor = some (.ok value, middle)) :
    outcome? (reading >>= next) cursor = outcome? (next value) middle := by
  change Option.bind (outcome? reading cursor) _ = _
  rw [read]
  rfl

theorem outcome?_bind_error (ended : outcome? reading cursor = some (.error missing, middle)) :
    outcome? (reading >>= next) cursor = some (.error missing, middle) := by
  change Option.bind (outcome? reading cursor) _ = _
  rw [ended]
  rfl

theorem outcome?_get : outcome? (get : Reading ε Cursor) cursor = some (.ok cursor, cursor) := rfl

theorem outcome?_lift {o : Option α} (there : o = some value) :
    outcome? (liftM o : Reading ε α) cursor = some (.ok value, cursor) := by
  rw [there]
  rfl

theorem outcome?_advance {n : Nat} (fits : cursor.position + n < UInt64.size) :
    outcome? (advance n : Reading ε Unit) cursor = some (.ok (), ⟨cursor.data, cursor.position + n⟩) := by
  have word : sum? cursor.position n = some (cursor.position + n) := if_pos fits
  rw [advance, outcome?_bind_ok outcome?_get, outcome?_bind_ok (outcome?_lift word)]
  rfl

theorem outcome?_byte (fits : front.length + 1 < UInt64.size) (value : UInt8) :
    outcome? (byte missing) (between front (value :: rest)) =
      some (.ok value, between (front ++ [value]) rest) := by
  have there : (between front (value :: rest)).data[front.length]? = some value := by simp [between]
  rw [byte, outcome?_bind_ok outcome?_get]
  simp only [position_between, there]
  rw [outcome?_bind_ok (outcome?_advance fits), between_append]
  rfl

theorem outcome?_byte_end :
    outcome? (byte missing) (between front []) = some (.error missing, between front []) := by
  have absent : (between front []).data[front.length]? = none := by simp [between]
  rw [byte, outcome?_bind_ok outcome?_get]
  simp only [position_between, absent]
  rfl

theorem outcome?_triple (fits : front.length + 3 < UInt64.size) (first second third : UInt8) :
    outcome? (triple missing) (between front (first :: second :: third :: rest)) =
      some (.ok (first, second, third), between (front ++ [first, second, third]) rest) := by
  have word : sum? front.length 3 = some (front.length + 3) := if_pos fits
  rw [triple, outcome?_bind_ok outcome?_get, position_between, outcome?_bind_ok (outcome?_lift word)]
  simp only [extract_between, List.take_succ_cons, List.take_zero]
  rw [outcome?_bind_ok (outcome?_advance fits), between_append]
  rfl

theorem outcome?_triple_end (fits : front.length + 3 < UInt64.size) (short : rest.length < 3) :
    outcome? (triple missing) (between front rest) = some (.error missing, between front rest) := by
  have word : sum? front.length 3 = some (front.length + 3) := if_pos fits
  have all : rest.take 3 = rest := List.take_of_length_le (Nat.le_of_lt short)
  rw [triple, outcome?_bind_ok outcome?_get, position_between, outcome?_bind_ok (outcome?_lift word)]
  simp only [extract_between, all]
  match rest, short with
  | [], _ => rfl
  | [_], _ => rfl
  | [_, _], _ => rfl

theorem outcome?_remaining :
    outcome? (remaining : Reading ε Nat) (between front rest) = some (.ok rest.length, between front rest) := by
  have exact : difference? (between front rest).data.length front.length = some rest.length := by
    simp [difference?, between]
  rw [remaining, outcome?_bind_ok outcome?_get, position_between, outcome?_lift exact]

end Cursor
end TlsFixtures
