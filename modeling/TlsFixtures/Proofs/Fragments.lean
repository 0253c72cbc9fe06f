import TlsFixtures.Handshake

/-! Messages of which a first part was captured. What was lost can be read off the header: its type, its length, or
the end of its body. And there are no other bytes: whatever was captured is the beginning of some message with
something behind it. -/
namespace TlsFixtures.Handshake

open Cursor (outcome?)

/-- The first bytes of a message with something behind it. -/
structure Fragment where
  messageType : UInt8
  body : List UInt8
  tail : List UInt8
  kept : Nat
  /-- The length of the body can be declared in 24 bits. -/
  declarable : body.length < 0x1000000
  inside : kept ≤ (message messageType body ++ tail).length

namespace Fragment

def bytes (f : Fragment) : List UInt8 := (message f.messageType f.body ++ f.tail).take f.kept

/-- What is read where a fragment should have its header. -/
inductive Reads (f : Fragment) : Except HeaderPart Header → Prop where
  | noType : f.kept = 0 → Reads f (.error .messageType)
  | noLength : 1 ≤ f.kept → f.kept ≤ 3 → Reads f (.error .length)
  | header : f.kept = 4 + captured → Reads f (.ok ⟨f.messageType, f.body.length, captured⟩)

variable {f : Fragment} {result : Except HeaderPart Header}

theorem bytes_of_kept {captured : Nat} (whole : f.kept = 4 + captured) :
    f.bytes = f.messageType :: UInt8.ofNat (f.body.length / 65536) :: UInt8.ofNat (f.body.length / 256) ::
      UInt8.ofNat f.body.length :: (f.body ++ f.tail).take captured := by
  rw [bytes, whole, Nat.add_comm]
  rfl

theorem reads_inspect (f : Fragment) : Reads f (inspect f.bytes) := by
  match kept : f.kept with
  | 0 =>
    have empty : f.bytes = [] := by rw [bytes, kept]; rfl
    rw [empty, inspect_nil]
    exact .noType kept
  | 1 | 2 | 3 =>
    have cutOff : ∃ rest, f.bytes = f.messageType :: rest ∧ rest.length < 3 := by
      refine ⟨_, by rw [bytes, kept]; rfl, by simp⟩
    obtain ⟨rest, split, short⟩ := cutOff
    rw [split, inspect_short short]
    exact .noLength (by omega) (by omega)
  | captured + 4 =>
    have whole : f.kept = 4 + captured := by omega
    have within : captured ≤ (f.body ++ f.tail).length := by
      have inside := f.inside
      simp only [message, List.cons_append, List.length_cons] at inside
      omega
    rw [bytes_of_kept whole, inspect_header, length24_ofNat f.declarable, List.length_take, Nat.min_eq_left within]
    exact .header whole

theorem Reads.noType_iff (reads : Reads f result) : result = .error .messageType ↔ f.kept = 0 := by
  cases reads with
  | noType nothing => exact iff_of_true rfl nothing
  | noLength some _ => exact iff_of_false nofun (by omega)
  | header whole => exact iff_of_false nofun (by omega)

theorem Reads.noLength_iff (reads : Reads f result) : result = .error .length ↔ 1 ≤ f.kept ∧ f.kept ≤ 3 := by
  cases reads with
  | noType nothing => exact iff_of_false nofun (by omega)
  | noLength some few => exact iff_of_true rfl ⟨some, few⟩
  | header whole => exact iff_of_false nofun (by omega)

theorem Reads.header_iff (reads : Reads f result) : (∃ header, result = .ok header) ↔ 4 ≤ f.kept := by
  cases reads with
  | noType nothing => exact iff_of_false nofun (by omega)
  | noLength _ few => exact iff_of_false nofun (by omega)
  | header whole => exact iff_of_true ⟨_, rfl⟩ (by omega)

theorem Reads.header_eq {header : Header} (reads : Reads f (.ok header)) :
    header.messageType = f.messageType ∧ header.length = f.body.length ∧ header.captured = f.kept - 4 ∧
      (header.isComplete ↔ 4 + f.body.length ≤ f.kept) := by
  cases reads with
  | header whole =>
    refine ⟨rfl, rfl, by rw [whole, Nat.add_sub_cancel_left], ?_⟩
    rw [Header.isComplete, decide_eq_true_iff, whole]
    exact Nat.add_le_add_iff_left.symm

end Fragment

/-- A part of the header is known by its name. -/
theorem mapError_name_iff {result : Except HeaderPart Header} {part : HeaderPart} :
    result.mapError HeaderPart.name = .error part.name ↔ result = .error part := by
  constructor
  · intro named
    cases result with
    | ok header => cases named
    | error found =>
      have same : found.name = part.name := Except.error.inj named
      cases found <;> cases part <;> first | rfl | exact absurd same (by decide)
  · rintro rfl
    rfl

theorem length24_lt (high middle low : UInt8) : length24 high middle low < 0x1000000 := by
  have := high.toNat_lt
  have := middle.toNat_lt
  have := low.toNat_lt
  rw [length24]
  omega

/-- The three bytes of a length are those that it is declared with. -/
theorem message_of_length {high middle low : UInt8} {body : List UInt8}
    (declared : body.length = length24 high middle low) (messageType : UInt8) :
    message messageType body = messageType :: high :: middle :: low :: body := by
  have := high.toNat_lt
  have := middle.toNat_lt
  have := low.toNat_lt
  have first : UInt8.ofNat (body.length / 65536) = high := by
    rw [UInt8.ofNat_eq_iff_mod_eq_toNat, declared, length24]
    omega
  have second : UInt8.ofNat (body.length / 256) = middle := by
    rw [UInt8.ofNat_eq_iff_mod_eq_toNat, declared, length24]
    omega
  have third : UInt8.ofNat body.length = low := by
    rw [UInt8.ofNat_eq_iff_mod_eq_toNat, declared, length24]
    omega
  rw [message, first, second, third]

theorem Fragment.exists_of_prefix {messageType : UInt8} {body tail payload : List UInt8}
    (declarable : body.length < 0x1000000) (begins : payload <+: message messageType body ++ tail) :
    ∃ f : Fragment, f.bytes = payload :=
  ⟨⟨messageType, body, tail, payload.length, declarable, begins.length_le⟩, (List.prefix_iff_eq_take.mp begins).symm⟩

/-- Bytes begin some longer ones of which the first `n` are set apart; what is missing of these may be anything. -/
theorem exists_body (captured : List UInt8) (n : Nat) :
    ∃ body tail : List UInt8, body.length = n ∧ captured <+: body ++ tail := by
  let missing := List.replicate (n - captured.length) (0 : UInt8)
  refine ⟨(captured ++ missing).take n, (captured ++ missing).drop n, ?_, ?_⟩
  · simp [missing]
    omega
  · rw [List.take_append_drop]
    exact List.prefix_append captured missing

theorem exists_message (messageType high middle low : UInt8) (captured : List UInt8) :
    ∃ body tail, body.length < 0x1000000 ∧
      messageType :: high :: middle :: low :: captured <+: message messageType body ++ tail := by
  obtain ⟨body, tail, length, begins⟩ := exists_body captured (length24 high middle low)
  refine ⟨body, tail, length ▸ length24_lt high middle low, ?_⟩
  rw [message_of_length length]
  simpa only [List.cons_append, List.prefix_cons_inj] using begins

/-- All bytes are a fragment of a message. A header that is cut off may go on with zeros. -/
theorem exists_fragment (payload : List UInt8) : ∃ f : Fragment, f.bytes = payload := by
  have begins : payload <+: payload ++ [0, 0, 0, 0] := List.prefix_append payload _
  match padded : payload ++ [0, 0, 0, 0] with
  | messageType :: high :: middle :: low :: captured =>
    obtain ⟨body, tail, declarable, extended⟩ := exists_message messageType high middle low captured
    rw [padded] at begins
    exact Fragment.exists_of_prefix declarable (begins.trans extended)
  | [] | [_] | [_, _] | [_, _, _] =>
    have lengths := congrArg List.length padded
    simp at lengths

/-- The header of a fragment is missing from its type on if nothing is kept, and from its length on if at most three
bytes are; otherwise it is that of the message, complete if the whole body is kept. All bytes are a fragment, none
declare 24 bits or more, and their header is read at positions inside of them, with no sum that is no machine word and
no difference below zero. -/
theorem fragments_inspected :
    (∀ f : Fragment,
      ((inspect f.bytes).mapError HeaderPart.name = .error "handshake type" ↔ f.kept = 0) ∧
      ((inspect f.bytes).mapError HeaderPart.name = .error "handshake length" ↔ 1 ≤ f.kept ∧ f.kept ≤ 3) ∧
      ((∃ header, inspect f.bytes = .ok header) ↔ 4 ≤ f.kept) ∧
      ∀ header, inspect f.bytes = .ok header →
        header.messageType = f.messageType ∧ header.length = f.body.length ∧ header.captured = f.kept - 4 ∧
        (header.isComplete ↔ 4 + f.body.length ≤ f.kept)) ∧
    ∀ payload : List UInt8,
      (∃ f : Fragment, f.bytes = payload) ∧
      (∀ header, inspect payload = .ok header → header.length < 0x1000000) ∧
      ∃ position ≤ payload.length,
        outcome? header (.start payload) = some (inspect payload, ⟨payload, position⟩) := by
  refine ⟨fun f => ?_, fun payload => ⟨exists_fragment payload, fun header found => ?_, ?_⟩⟩
  · have reads := f.reads_inspect
    have noType := mapError_name_iff.trans reads.noType_iff
    have noLength := mapError_name_iff.trans reads.noLength_iff
    exact ⟨noType, noLength, reads.header_iff, fun header found => (found ▸ reads).header_eq⟩
  · obtain ⟨f, rfl⟩ := exists_fragment payload
    obtain ⟨_, length, _⟩ := (found ▸ f.reads_inspect).header_eq
    exact length ▸ f.declarable
  · obtain ⟨result, front, rest, rfl, read⟩ := outcome?_header_exists payload
    refine ⟨front.length, by simp, ?_⟩
    rw [inspect_eq read]
    exact read

/-- A message of which three of five bytes were kept. -/
def cutMessage : Fragment := ⟨2, [3, 3, 7, 7, 7], [0xff], 7, by decide, by decide⟩

/-- It declares more than was kept, and what was behind it does not show. -/
theorem fragments_inspected_cut :
    let read : Header := ⟨2, 5, 3⟩
    cutMessage.bytes = [2, 0, 0, 5, 3, 3, 7] ∧ inspect cutMessage.bytes = .ok read ∧ 4 ≤ cutMessage.kept ∧
    ¬read.isComplete ∧ ¬4 + cutMessage.body.length ≤ cutMessage.kept ∧ read.length < 0x1000000 ∧
    ∃ position ≤ cutMessage.bytes.length,
      outcome? header (.start cutMessage.bytes) = some (.ok read, ⟨cutMessage.bytes, position⟩) := by
  intro read
  have bytes : cutMessage.bytes = [2, 0, 0, 5, 3, 3, 7] := rfl
  have found : inspect cutMessage.bytes = .ok read := by rw [bytes, inspect_header]; rfl
  have lacking : ¬read.isComplete := by decide
  obtain ⟨_, _, whole, parts⟩ := fragments_inspected.1 cutMessage
  obtain ⟨_, declared, reading⟩ := fragments_inspected.2 cutMessage.bytes
  obtain ⟨_, _, _, complete⟩ := parts read found
  exact ⟨bytes, found, whole.mp ⟨read, found⟩, lacking, mt complete.mpr lacking, declared read found, found ▸ reading⟩

end TlsFixtures.Handshake
