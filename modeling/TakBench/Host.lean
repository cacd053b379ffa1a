import Mathlib.Tactic.Common

/-!
# Hosts

The host part of a `host:port` text, and whether a host is a loopback address. Addresses are read
as the standard library reads them.

## Main definitions

* `hostFromServer`
* `readIpv4Addr`, `readIpv6Addr`
* `isLoopback`
-/

namespace TakBench

/-- `rsplit_once`: the parts before and behind the last `c`. -/
def rsplitOnce (c : Char) (text : List Char) : Option (List Char × List Char) :=
  match text.reverse.dropWhile (· ≠ c) with
  | [] => none
  | _ :: before => some (before.reverse, (text.reverse.takeWhile (· ≠ c)).reverse)

/-- `host_from_server`: brackets around the host are removed. -/
def hostFromServer (server : String) : String :=
  match rsplitOnce ':' server.toList with
  | none => server
  | some (host, _) =>
    let isBracket := fun c => decide (c = '[' ∨ c = ']')
    String.ofList (((host.dropWhile isBracket).reverse.dropWhile isBracket).reverse)

/-! ## Reading addresses

A reader returns what it read and the text that follows, or `none`; then nothing is consumed. -/

/-- The value of a digit in the given radix. -/
def digitValue (radix : ℕ) (c : Char) : Option ℕ :=
  let value :=
    if '0' ≤ c ∧ c ≤ '9' then c.toNat - 48
    else if 'a' ≤ c ∧ c ≤ 'f' then c.toNat - 87
    else if 'A' ≤ c ∧ c ≤ 'F' then c.toNat - 55
    else radix
  if value < radix then some value else none

/-- `read_number`: one to `maxDigits` digits with a value up to `bound`. -/
def readNumber (radix maxDigits bound : ℕ) (allowZeroPrefix : Bool) (text : List Char) :
    Option (ℕ × List Char) :=
  let digits := text.takeWhile fun c => (digitValue radix c).isSome
  let value := digits.foldl (fun n c => n * radix + (digitValue radix c).getD 0) 0
  if digits.isEmpty || maxDigits < digits.length || bound < value ||
      (!allowZeroPrefix && digits.head? = some '0' && 1 < digits.length) then none
  else some (value, text.drop digits.length)

/-- `read_separator`: a separator comes before every item but the first. -/
def readSeparator {α : Type} (separator : Char) (index : ℕ)
    (read : List Char → Option (α × List Char)) (text : List Char) : Option (α × List Char) :=
  if index = 0 then read text
  else
    match text with
    | c :: rest => if c = separator then read rest else none
    | [] => none

/-- Four octets separated by dots. -/
def readIpv4Addr (text : List Char) : Option (List ℕ × List Char) :=
  (List.range 4).foldlM (fun (octets, rest) index =>
    (readSeparator '.' index (readNumber 10 3 255 false) rest).map
      fun p => (octets ++ [p.1], p.2)) ([], text)

/-- `read_groups`: up to `limit` groups from `index` on, and whether the last two are an embedded
IPv4 address. -/
def readGroups (limit : ℕ) : ℕ → ℕ → List Char → List ℕ × Bool × List Char
  | 0, _, text => ([], false, text)
  | fuel + 1, index, text =>
    match if index + 1 < limit then readSeparator ':' index readIpv4Addr text else none with
    | some (octets, rest) =>
      ([octets.getD 0 0 * 256 + octets.getD 1 0, octets.getD 2 0 * 256 + octets.getD 3 0], true,
        rest)
    | none =>
      match readSeparator ':' index (readNumber 16 4 65535 true) text with
      | none => ([], false, text)
      | some (group, rest) =>
        let (groups, isIpv4, rest') := readGroups limit fuel (index + 1) rest
        (group :: groups, isIpv4, rest')

/-- Eight groups, or fewer with one `::` in place of the missing ones. -/
def readIpv6Addr (text : List Char) : Option (List ℕ × List Char) :=
  let (head, headIsIpv4, rest) := readGroups 8 8 0 text
  if head.length = 8 then some (head, rest)
  else if headIsIpv4 then none
  else
    match rest with
    | ':' :: ':' :: rest =>
      let limit := 8 - (head.length + 1)
      let (tail, _, rest) := readGroups limit limit 0 rest
      some (head ++ List.replicate (8 - head.length - tail.length) 0 ++ tail, rest)
    | _ => none

/-- The address, if it is the whole text. -/
def wholeText {α : Type} : Option (α × List Char) → Option α
  | some (address, []) => some address
  | _ => none

/-- `is_loopback`: the name `localhost`, `127.0.0.0/8` or `::1`. -/
def isLoopback (host : String) : Bool :=
  host = "localhost" ||
    match wholeText (readIpv4Addr host.toList) with
    | some octets => octets.head? = some 127
    | none =>
      match wholeText (readIpv6Addr host.toList) with
      | some groups => groups = [0, 0, 0, 0, 0, 0, 0, 1]
      | none => false

example : isLoopback (hostFromServer "127.0.0.1:8089") = true := by decide

example : isLoopback (hostFromServer "[::1]:8089") = true := by decide

example : isLoopback (hostFromServer "127.0.0.01:8089") = false := by decide

end TakBench
