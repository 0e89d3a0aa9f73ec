/-!
# Reading UTF-8

Bytes are cut into characters and faults. A fault is either a few bytes that no continuation makes a
character, or the beginning of a character at the end of the input. After a fault reading goes on.

Contents: `Chunk`, `chunks`; `Fault` and `decode`, which stops at the first fault; `lossy`, which
shows each fault as the replacement character.
-/

namespace Lox.Text.Utf8

inductive Chunk where
  | char (c : Char)
  | invalid (length : Nat)
  | incomplete
  deriving DecidableEq, Repr

def isContinuation (b : UInt8) : Bool := 0x80 ≤ b && b < 0xc0

def payload (b : UInt8) : Nat := b.toNat % 0x40

/-- The second bytes that may follow the first byte of a character of three or four bytes. -/
def admitsSecond (first second : UInt8) : Bool :=
  isContinuation second &&
    (if first = 0xe0 then 0xa0 ≤ second
    else if first = 0xed then second < 0xa0
    else if first = 0xf0 then 0x90 ≤ second
    else if first = 0xf4 then second < 0x90
    else true)

def chunks : List UInt8 → List Chunk
  | [] => []
  | a :: s =>
    if a < 0x80 then .char (Char.ofNat a.toNat) :: chunks s
    else if 0xc2 ≤ a && a < 0xe0 then
      match s with
      | [] => [.incomplete]
      | b :: t =>
        if isContinuation b then .char (Char.ofNat (a.toNat % 0x20 * 0x40 + payload b)) :: chunks t
        else .invalid 1 :: chunks (b :: t)
    else if 0xe0 ≤ a && a < 0xf0 then
      match s with
      | [] => [.incomplete]
      | b :: t =>
        if admitsSecond a b then
          match t with
          | [] => [.incomplete]
          | c :: u =>
            if isContinuation c then
              .char (Char.ofNat ((a.toNat % 0x10 * 0x40 + payload b) * 0x40 + payload c)) :: chunks u
            else .invalid 2 :: chunks (c :: u)
        else .invalid 1 :: chunks (b :: t)
    else if 0xf0 ≤ a && a < 0xf5 then
      match s with
      | [] => [.incomplete]
      | b :: t =>
        if admitsSecond a b then
          match t with
          | [] => [.incomplete]
          | c :: u =>
            if isContinuation c then
              match u with
              | [] => [.incomplete]
              | d :: v =>
                if isContinuation d then
                  .char (Char.ofNat
                    (((a.toNat % 0x08 * 0x40 + payload b) * 0x40 + payload c) * 0x40 + payload d)) :: chunks v
                else .invalid 3 :: chunks (d :: v)
            else .invalid 2 :: chunks (c :: u)
        else .invalid 1 :: chunks (b :: t)
    else .invalid 1 :: chunks s

/--
Where reading fails first: the number of good bytes before, and the length of the bad sequence if it
is complete.
-/
structure Fault where
  position : Nat
  length : Option Nat
  deriving DecidableEq, Repr

def Fault.message (fault : Fault) : String :=
  match fault.length with
  | some length => "invalid utf-8 sequence of " ++ toString length ++ " bytes from index " ++ toString fault.position
  | none => "incomplete utf-8 byte sequence from index " ++ toString fault.position

def collect (position : Nat) : List Chunk → Except Fault (List Char)
  | [] => .ok []
  | .char c :: rest => (collect (position + c.utf8Size) rest).map (c :: ·)
  | .invalid length :: _ => .error ⟨position, some length⟩
  | .incomplete :: _ => .error ⟨position, none⟩

def decode (bytes : List UInt8) : Except Fault String :=
  (collect 0 (chunks bytes)).map String.ofList

/-- The text of the bytes with the replacement character for each fault. -/
def lossy (bytes : List UInt8) : String :=
  .ofList <| (chunks bytes).map fun
    | .char c => c
    | _ => '\ufffd'

end Lox.Text.Utf8
