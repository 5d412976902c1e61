import SlaveLink.Bytes.Preview
import SlaveLink.Json.Scan

/-! # Reading typed values from JSON
A reader takes one value of a known type from the front of the text. A record may be given as an
object, in which unknown members are passed over and no known one may stand twice, or as an array in
field order. Fields that are missing keep the value they have. -/

namespace SlaveLink.Json

open Scan

abbrev Reader (α : Type) := Bytes → Except ReadError (α × Bytes)

namespace Reader

variable {α σ : Type}

/-- The fault of a value of the wrong type, which must still begin as JSON. -/
def mismatch (bs : Bytes) : ReadError :=
  let faultOf {β : Type} (r : Scanned β) : ReadError := match r with
    | .error e => e
    | .ok _ => .unexpected
  match bs with
  | 110 :: bs => faultOf (word restOfNull bs)
  | 116 :: bs => faultOf (word restOfTrue bs)
  | 102 :: bs => faultOf (word restOfFalse bs)
  | 45 :: bs => faultOf (number .wanted bs)
  | 34 :: bs => faultOf (text .wanted bs)
  | 91 :: _ | 123 :: _ => .unexpected
  | b :: bs => if isDigit b then faultOf (number .wanted (b :: bs)) else .malformed
  | [] => .malformed

def natural (max : Nat) : Reader Nat := fun bs =>
  match skipBlanks bs with
  | [] => .error .truncated
  | b :: bs =>
    if isDigit b then
      match number .wanted (b :: bs) with
      | .error e => .error e
      | .ok (some n, rest) => if n ≤ max then .ok (n, rest) else .error .unexpected
      | .ok (none, _) => .error .unexpected
    else .error (mismatch (b :: bs))

def boolean : Reader Bool := fun bs =>
  match skipBlanks bs with
  | [] => .error .truncated
  | 116 :: bs => (word restOfTrue bs).map fun (_, rest) => (true, rest)
  | 102 :: bs => (word restOfFalse bs).map fun (_, rest) => (false, rest)
  | bs => .error (mismatch bs)

/-- `null`, or what `r` reads. -/
def optional (r : Reader α) : Reader (Option α) := fun bs =>
  match skipBlanks bs with
  | 110 :: bs => (word restOfNull bs).map fun (_, rest) => (none, rest)
  | bs => (r bs).map fun (x, rest) => (some x, rest)

def named (values : List (String × α)) (name : Bytes) : Except ReadError α :=
  match name.toText?.bind fun name => values.lookup name with
  | some x => .ok x
  | none => .error .unexpected

def colon (bs : Bytes) : Scanned Unit :=
  match skipBlanks bs with
  | [] => .error .truncated
  | 58 :: rest => .ok ((), rest)
  | _ => .error .malformed

/-- `null` where nothing else may stand. -/
def onlyNull : Reader Unit := fun bs =>
  match skipBlanks bs with
  | [] => .error .truncated
  | 110 :: bs => word restOfNull bs
  | bs => .error (mismatch bs)

/-- One of a list of names, alone or as the name of an object's only member, which is null. -/
def choice (values : List (String × α)) : Reader α := fun bs =>
  match skipBlanks bs with
  | [] => .error .truncated
  | 34 :: bs => do
    let (name, rest) ← text .wanted bs
    return (← named values name, rest)
  | 123 :: bs =>
    match skipBlanks bs with
    | [] => .error .truncated
    | 34 :: bs => do
      let (name, bs) ← text .wanted bs
      let x ← named values name
      let ((), bs) ← colon bs
      let ((), bs) ← onlyNull bs
      match skipBlanks bs with
      | [] => .error .truncated
      | 125 :: rest => return (x, rest)
      | _ => .error .malformed
    | _ => .error .malformed
  | _ => .error .malformed

end Reader

/-- A field of a record under construction. -/
structure Member (σ : Type) where
  name : String
  read : σ → Reader σ
  isRequired : Bool := false

namespace Member

variable {α σ : Type}

def of (name : String) (r : Reader α) (set : α → σ → σ) : Member σ :=
  ⟨name, fun s bs => (r bs).map fun (x, rest) => (set x s, rest), false⟩

def required (f : Member σ) : Member σ := { f with isRequired := true }

end Member

namespace Reader

variable {σ : Type}

/-- The elements of an array as fields in order; `isFirst` until one was read. -/
def elements (isFirst : Bool) (s : σ) : List (Member σ) → Reader σ
  | [], bs =>
    match skipBlanks bs with
    | [] => .error .truncated
    | 93 :: rest => .ok (s, rest)
    | _ => .error .malformed
  | f :: fs, bs =>
    match skipBlanks bs with
    | [] => .error .truncated
    | 93 :: rest =>
      if (f :: fs).any (·.isRequired) then .error .unexpected else .ok (s, rest)
    | bs =>
      let element (bs : Bytes) : Scanned σ :=
        match f.read s bs with
        | .error e => .error e
        | .ok (s, bs) => elements false s fs bs
      if isFirst then element bs
      else match bs with
        | 44 :: bs =>
          match skipBlanks bs with
          | [] => .error .truncated
          | 93 :: _ => .error .malformed
          | bs => element bs
        | _ => .error .malformed

/-- The members of an object from a name on; `seen` names the known ones so far. -/
def members (fields : List (Member σ)) : Nat → List String → σ → Reader σ
  | 0, _, _, _ => .error .malformed
  | fuel + 1, seen, s, bs =>
    match bs with
    | 34 :: bs => do
      let (name, bs) ← text .wanted bs
      let known := name.toText?.bind fun name => fields.find? (·.name == name)
      let (seen, s, bs) ← match known with
        | some f =>
          if seen.contains f.name then .error .unexpected
          else do
            let ((), bs) ← colon bs
            let (s, bs) ← f.read s bs
            pure (f.name :: seen, s, bs)
        | none => do
          let ((), bs) ← colon bs
          let ((), bs) ← skip bs
          pure (seen, s, bs)
      match skipBlanks bs with
      | [] => .error .truncated
      | 125 :: rest =>
        if fields.any fun f => f.isRequired && ! seen.contains f.name then .error .unexpected
        else .ok (s, rest)
      | 44 :: bs =>
        match skipBlanks bs with
        | [] => .error .truncated
        | bs => members fields fuel seen s bs
      | _ => .error .malformed
    | _ => .error .malformed

def record (fields : List (Member σ)) (s : σ) : Reader σ := fun bs =>
  match skipBlanks bs with
  | [] => .error .truncated
  | 91 :: bs => elements true s fields bs
  | 123 :: bs =>
    match skipBlanks bs with
    | [] => .error .truncated
    | 125 :: rest => if fields.any (·.isRequired) then .error .unexpected else .ok (s, rest)
    | bs => members fields bs.length [] s bs
  | bs => .error (mismatch bs)

end Reader

/-- Reads a whole text as one value; only blanks may follow it. -/
def read {α : Type} (r : Reader α) (text : String) : Except ReadError α :=
  match r (text.toList.flatMap String.utf8EncodeChar) with
  | .error e => .error e
  | .ok (x, rest) => if (skipBlanks rest).isEmpty then .ok x else .error .malformed

end SlaveLink.Json
