import RscdkChain.Number
import RscdkChain.Client.Tester

namespace RscdkChain

variable {α : Type}

def unwrapOption : Option α → Except Abort α
  | some a => .ok a
  | none => .error .panic

theorem unwrapOption_eq_ok {o : Option α} {a : α} : unwrapOption o = .ok a ↔ o = some a := by
  cases o <;> simp [unwrapOption]

inductive Value
  | null
  | bool (b : Bool)
  | number (text : String)
  | string (s : String)
  | array (elems : List Value)
  | object (members : List (String × Value))

namespace Value

def key : Value → String → Value
  | object members, k => (members.lookup k).getD null
  | _, _ => null

def idx : Value → ℕ → Value
  | array elems, i => elems.getD i null
  | _, _ => null

def get : Value → String → Option Value
  | object members, k => members.lookup k
  | _, _ => none

def asArray : Value → Option (List Value)
  | array elems => some elems
  | _ => none

def asStr : Value → Option String
  | string s => some s
  | _ => none

end Value

structure ChainTesterError where
  json : Option Value
  errorString : Option String

/-- The body that `parse_ret`, `parse_ret2` and `push_action` share. -/
def parseReply {σ : Type} (parse : σ → Except String Value) (ret : Except String σ) :
    Except ChainTesterError Value :=
  match ret with
  | .ok ret =>
    match parse ret with
    | .ok tx => if (tx.get "except").isSome then .error ⟨some tx, none⟩ else .ok tx
    | .error err => .error ⟨none, some err⟩
  | .error err => .error ⟨none, some err⟩

def parseRet (fromStr : String → Except String Value) :
    Except String String → Except ChainTesterError Value :=
  parseReply fromStr

def parseRet2 (fromSlice : List (BitVec 8) → Except String Value) :
    Except String (List (BitVec 8)) → Except ChainTesterError Value :=
  parseReply fromSlice

def pushAction (fromSlice : List (BitVec 8) → Except String Value) :
    Except String (List (BitVec 8)) → Except ChainTesterError Value :=
  parseReply fromSlice

namespace ChainTesterError

def getErr (e : ChainTesterError) : Except Abort (Option String) :=
  match e.json with
  | some v => .ok (((((v.key "except").key "stack").idx 0).key "data").key "s").asStr
  | none => .error .panic

def checkErr (e : ChainTesterError) (err : String) : Except Abort Unit := do
  let err2 ← e.getErr
  match err2 with
  | some err2 => if err2 ≠ err then .error .panic else .ok ()
  | none => .error .panic

def display (pretty : Value → String) (e : ChainTesterError) : String :=
  match e.json, e.errorString with
  | some v, _ => pretty v
  | none, some err => err
  | none, none => "Unknown error"

end ChainTesterError

def tryIntoArray (n : ℕ) (slice : List (BitVec 8)) : Option (List (BitVec 8)) :=
  if slice.length = n then some slice else none

def getBalanceEx (hexDecode : String → Except String (List (BitVec 8)))
    (ret : Except ChainTesterError Value) : Except Abort (BitVec 64) := do
  let ret ← unwrap ret
  let rows ← unwrapOption (ret.key "rows").asArray
  match rows with
  | [] => pure 0
  | row :: _ =>
    let balance ← unwrapOption (row.key "data").asStr
    let bytes ← unwrap (hexDecode balance)
    if 8 ≤ bytes.length then
      match tryIntoArray 8 (bytes.take 8) with
      | some amount => pure (BitVec.ofNat 64 (leValue amount))
      | none => .error .panic
    else .error .panic

def openLoop (opens : ℕ → Except String Unit) : List ℕ → Except Abort (List String)
  | [] => .ok []
  | i :: is =>
    match opens i with
    | .ok () => .ok []
    | .error err => if i = 10 then .error .panic else (openLoop opens is).map (err :: ·)

def newVmApiClient (opens : ℕ → Except String Unit) (split : Except String Unit) :
    Except Abort (List String × Except String Unit) := do
  let printed ← openLoop opens (List.range 11)
  pure (printed, split)

end RscdkChain
