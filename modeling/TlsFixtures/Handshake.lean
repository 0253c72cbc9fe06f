import TlsFixtures.Cursor

/-! Framing of handshake messages: a type byte, a length of 24 bits, then the body. Only these four bytes
are read, so a message may be cut short or carry more than it declares. Main statement: a header is read within
the bytes and with machine words, whatever they are. -/
namespace TlsFixtures.Handshake

open Cursor (outcome? between)

/-- The message types over which a fingerprint is defined. -/
inductive MessageType where
  | clientHello
  | serverHello
  deriving DecidableEq, Repr

def MessageType.code : MessageType → UInt8
  | clientHello => 1
  | serverHello => 2

/-- The code as the two hex digits that raw bytes begin with. -/
def MessageType.marker : MessageType → String
  | clientHello => "01"
  | serverHello => "02"

structure Header where
  messageType : UInt8
  /-- Body length that the message declares. -/
  length : Nat
  /-- Body bytes that follow the header. -/
  captured : Nat
  deriving DecidableEq, Repr

def Header.isComplete (h : Header) : Bool := h.length ≤ h.captured

/-- The two parts of a header that a message can be too short for. -/
inductive HeaderPart where
  | messageType
  | length
  deriving DecidableEq, Repr

def HeaderPart.name : HeaderPart → String
  | messageType => "handshake type"
  | length => "handshake length"

def length24 (high middle low : UInt8) : Nat := high.toNat * 65536 + middle.toNat * 256 + low.toNat

/-- A message: its type, the length of its body, and the body. -/
def message (messageType : UInt8) (body : List UInt8) : List UInt8 :=
  messageType :: UInt8.ofNat (body.length / 65536) :: UInt8.ofNat (body.length / 256) ::
    UInt8.ofNat body.length :: body

/-- Reads a header. What stands behind it is counted and not looked at. -/
def header : Cursor.Reading HeaderPart Header := do
  let messageType ← Cursor.byte .messageType
  let (high, middle, low) ← Cursor.triple .length
  let captured ← Cursor.remaining
  return ⟨messageType, length24 high middle low, captured⟩

theorem outcome?_header_nil :
    outcome? header (between [] []) = some (.error .messageType, between [] []) :=
  Cursor.outcome?_bind_error Cursor.outcome?_byte_end

theorem outcome?_header_short {rest : List UInt8} (short : rest.length < 3) (messageType : UInt8) :
    outcome? header (between [] (messageType :: rest)) = some (.error .length, between [messageType] rest) := by
  rw [header, Cursor.outcome?_bind_ok (Cursor.outcome?_byte (by decide) messageType)]
  exact Cursor.outcome?_bind_error (Cursor.outcome?_triple_end (by simp [UInt64.size]) short)

theorem outcome?_header (messageType high middle low : UInt8) (body : List UInt8) :
    outcome? header (between [] (messageType :: high :: middle :: low :: body)) =
      some (.ok ⟨messageType, length24 high middle low, body.length⟩,
        between [messageType, high, middle, low] body) := by
  rw [header, Cursor.outcome?_bind_ok (Cursor.outcome?_byte (by decide) messageType),
    Cursor.outcome?_bind_ok (Cursor.outcome?_triple (by simp [UInt64.size]) high middle low),
    Cursor.outcome?_bind_ok Cursor.outcome?_remaining]
  rfl

/-- Whatever the bytes, reading a header stops inside of them, and all its sums and differences are words. -/
theorem outcome?_header_exists (bytes : List UInt8) : ∃ result front rest,
    front ++ rest = bytes ∧ outcome? header (.start bytes) = some (result, between front rest) := by
  match bytes with
  | [] => exact ⟨_, _, _, rfl, outcome?_header_nil⟩
  | [messageType] | [messageType, _] | [messageType, _, _] =>
    exact ⟨_, _, _, rfl, outcome?_header_short (by simp) messageType⟩
  | messageType :: high :: middle :: low :: body =>
    exact ⟨_, _, _, rfl, outcome?_header messageType high middle low body⟩

theorem isSome_header (bytes : List UInt8) : (outcome? header (.start bytes)).isSome := by
  obtain ⟨_, _, _, _, read⟩ := outcome?_header_exists bytes
  exact Option.isSome_of_eq_some read

/-- The header at the start of some bytes, or the first part of it that is cut off. -/
def inspect (bytes : List UInt8) : Except HeaderPart Header :=
  ((outcome? header (.start bytes)).get (isSome_header bytes)).1

theorem inspect_eq {bytes : List UInt8} {result : Except HeaderPart Header} {cursor : Cursor}
    (read : outcome? header (.start bytes) = some (result, cursor)) : inspect bytes = result :=
  congrArg Prod.fst (Option.get_of_eq_some _ read)

@[simp] theorem inspect_nil : inspect [] = .error .messageType := inspect_eq outcome?_header_nil

theorem inspect_short {rest : List UInt8} (short : rest.length < 3) (messageType : UInt8) :
    inspect (messageType :: rest) = .error .length :=
  inspect_eq (outcome?_header_short short messageType)

@[simp] theorem inspect_header (messageType high middle low : UInt8) (body : List UInt8) :
    inspect (messageType :: high :: middle :: low :: body) =
      .ok ⟨messageType, length24 high middle low, body.length⟩ :=
  inspect_eq (outcome?_header messageType high middle low body)

theorem length24_ofNat {n : Nat} (h : n < 0x1000000) :
    length24 (UInt8.ofNat (n / 65536)) (UInt8.ofNat (n / 256)) (UInt8.ofNat n) = n := by
  simp only [length24, UInt8.toNat_ofNat']
  omega

end TlsFixtures.Handshake
