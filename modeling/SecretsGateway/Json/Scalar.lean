import SecretsGateway.Json.Number
import SecretsGateway.Json.Text

/-!
# Scalars

Readers of numbers of 64 bits, truth values and texts. A value of another kind is read as far as it has to be in order
to say what it is.
-/

namespace SecretsGateway.Json

/-- Refuses a value that is read. -/
def wrongKind {α : Type} (wanted : String) (found : Found) (rest : Bytes) : Result α :=
  failHere (.wrongKind found wanted) rest

/-- Refuses the next value, which starts `s`, because `wanted` should stand there. -/
def refuseNext {α : Type} (wanted : String) (s : Bytes) : Result α :=
  match s with
  | [] => failNext .wantsValue []
  | b :: rest =>
    if b = 110 then (word nullTail rest).andThen fun _ rest => wrongKind wanted .null rest
    else if b = 116 then (word trueTail rest).andThen fun _ rest => wrongKind wanted (.bool true) rest
    else if b = 102 then (word falseTail rest).andThen fun _ rest => wrongKind wanted (.bool false) rest
    else if b = minus then (number true rest).andThen fun n rest => wrongKind wanted n.found rest
    else if Decimal.isDigit b then (number false s).andThen fun n rest => wrongKind wanted n.found rest
    else if b = quote then (text rest).andThen fun t rest => wrongKind wanted (.text t) rest
    else if b = openList then wrongKind wanted .sequence s
    else if b = openObject then wrongKind wanted .map s
    else failNext .wantsValue s

/-- Reads an integer for which `accept` gives a value. -/
def integer {α : Type} (wanted : String) (accept : Int → Option α) (s : Bytes) : Result α :=
  let judge : Number → Bytes → Result α := fun n rest =>
    match n with
    | .int i =>
      match accept i with
      | some a => .ok (a, rest)
      | none => failHere (.wrongValue (.int i) wanted) rest
    | .float negative magnitude => wrongKind wanted (.float negative magnitude) rest
  match skipBlank s with
  | [] => failNext .endForValue []
  | b :: rest =>
    if b = minus then (number true rest).andThen judge
    else if Decimal.isDigit b then (number false (b :: rest)).andThen judge
    else refuseNext wanted (b :: rest)

def unsigned (wanted : String) (s : Bytes) : Result UInt64 :=
  integer wanted (fun i => if 0 ≤ i ∧ i < UInt64.size then some (UInt64.ofNat i.toNat) else none) s

def signed (s : Bytes) : Result Int64 :=
  integer "i64" (fun i => if Int64.minValue.toInt ≤ i ∧ i ≤ Int64.maxValue.toInt then some (Int64.ofInt i) else none) s

def bool (s : Bytes) : Result Bool :=
  match skipBlank s with
  | [] => failNext .endForValue []
  | b :: rest =>
    if b = 116 then (word trueTail rest).andThen fun _ rest => .ok (true, rest)
    else if b = 102 then (word falseTail rest).andThen fun _ rest => .ok (false, rest)
    else refuseNext "a boolean" (b :: rest)

/-- Reads a text; `wanted` says what it is for. -/
def string (wanted : String) (s : Bytes) : Result String :=
  match skipBlank s with
  | [] => failNext .endForValue []
  | b :: rest => if b = quote then text rest else refuseNext wanted (b :: rest)

def null (s : Bytes) : Result Unit :=
  match skipBlank s with
  | [] => failNext .endForValue []
  | b :: rest => if b = 110 then word nullTail rest else refuseNext "unit" (b :: rest)

/-- Reads `null` as nothing, and any other value with `read`. -/
def optional {α : Type} (read : Bytes → Result α) (s : Bytes) : Result (Option α) :=
  match skipBlank s with
  | 110 :: rest => (word nullTail rest).andThen fun _ rest => .ok (none, rest)
  | s => (read s).andThen fun a rest => .ok (some a, rest)

end SecretsGateway.Json
