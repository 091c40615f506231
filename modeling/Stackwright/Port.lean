import Stackwright.Decimal.Reading
import Stackwright.Text.Blank
import Stackwright.Text.Digits
import Stackwright.Text.Inspect
import Stackwright.Text.Split

/-!
# Published ports

A port binding publishes one container port. The compact text `[ip:][published:]target[/protocol]` expands
to one binding for each container port: ranges of equal length pair up port by port, and a range of host
ports against one container port is kept as it is written.
-/

namespace Stackwright

/-- A published container port. -/
structure Port where
  target : Nat := 0
  published : Option String := none
  protocol : Option String := none
  hostIp : Option String := none
deriving DecidableEq, Repr, Inhabited

namespace Port

/-- The number of ports. -/
def limit : Nat := 65536

/-- A text that is no port specification. -/
structure Fault where
  text : String
deriving DecidableEq, Repr

/-- The wording of a fault. -/
def Fault.message (f : Fault) : String :=
  "invalid port spec: " ++ Text.inspectString f.text

/-- A port number: digits with a value below the limit. -/
def readNumber (s : List Char) : Option Nat :=
  if !s.isEmpty && s.all Decimal.isDigit then (some (Decimal.digitsValue s)).filter (· < limit) else none

/-- A port, or a range of ports written with a hyphen, as its first and last port. -/
def readRange (s : List Char) : Option (Nat × Nat) :=
  match Text.splitFirst '-' s with
  | none => (readNumber s).map fun n => (n, n)
  | some (first, last) => do
      let first ← readNumber first
      let last ← readNumber last
      if first ≤ last then some (first, last) else none

/-- The host address, published ports and container ports of a specification. -/
structure Parts where
  hostIp : Option (List Char)
  published : Option (List Char)
  target : List Char
deriving DecidableEq, Repr

/-- The published and container ports behind a bracketed host address. -/
def cutBracketed : List Char → Option (List Char × List Char)
  | [] => none
  | ']' :: ':' :: rest => some ([], rest)
  | c :: rest => (cutBracketed rest).map fun (ip, tail) => (c :: ip, tail)

/-- Cuts a specification without brackets at its last two colons. -/
def cutColons (s : List Char) : Parts :=
  match Text.splitLast ':' s with
  | none => ⟨none, none, s⟩
  | some (front, target) =>
      match Text.splitLast ':' front with
      | none => ⟨none, some front, target⟩
      | some (ip, published) => ⟨some ip, some published, target⟩

/-- Cuts a specification into host address, published ports and container ports. -/
def cut (s : List Char) : Parts :=
  match s with
  | '[' :: rest =>
      match cutBracketed rest with
      | some (ip, tail) =>
          match Text.splitFirst ':' tail with
          | some (published, target) => ⟨some ip, some published, target⟩
          | none => ⟨some ip, none, tail⟩
      | none => cutColons s
  | _ => cutColons s

/-- The host ports for each of `count` container ports. -/
def publishedPorts (published : Option (List Char)) (count : Nat) : Option (List (Option String)) :=
  match published with
  | none => some (List.replicate count none)
  | some text => do
      let (first, last) ← readRange text
      if count = 1 then some [some (String.ofList text)]
      else if last - first + 1 = count then
        some ((List.range count).map fun i => some (String.ofList (Text.decimal (first + i))))
      else none

/-- The bindings of a trimmed specification. -/
def expand (s : List Char) : Option (List Port) := do
  let (address, protocol) := match Text.splitFirst '/' s with
    | some (address, protocol) => (address, some (String.ofList protocol))
    | none => (s, none)
  let parts := cut address
  let hostIp := (parts.hostIp.filter (!·.isEmpty)).map String.ofList
  let (first, last) ← readRange parts.target
  let count := last - first + 1
  let published ← publishedPorts (parts.published.filter (!·.isEmpty)) count
  return ((List.range count).map (first + ·)).zipWith
    (fun target published => { target, published, protocol, hostIp }) published

/-- Reads a port specification. -/
def parse (text : String) : Except Fault (List Port) :=
  match expand (Text.trim text.toList) with
  | some ports => .ok ports
  | none => .error ⟨text⟩

end Port
end Stackwright
