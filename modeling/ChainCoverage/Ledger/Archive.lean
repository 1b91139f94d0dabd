import ChainCoverage.Ledger.Basic
import ChainCoverage.Text.Basic

/-!
# The saved form of a ledger

A ledger is saved as the list of its entries and opened again from that list.  In a
file each entry is one line: a letter for its kind, then its bytes with two
hexadecimal digits each.

Main definitions:

- `Ledger.Entry`, `Ledger.entries` and `Ledger.ofEntries`.
- `Ledger.reopen`: the ledger after it was closed and opened again.
- `Ledger.Entry.line` and `Ledger.Entry.ofLine?`: entries as text.
- `Ledger.text` and `Ledger.ofText?`: ledgers as text.
-/

namespace ChainCoverage
namespace Ledger

/-- One saved key, with its value where it has one. -/
inductive Entry where
  | block (key : Bytes)
  | head (key value : Bytes)
deriving DecidableEq

/-- All entries of a ledger, blocks first, each kind in the order of its keys. -/
def entries (s : Ledger) : List Entry :=
  s.blocks.toList.map .block ++ s.heads.toList.map fun (key, value) => .head key value

/-- The ledger with one more entry. -/
def insertEntry (s : Ledger) : Entry → Ledger
  | .block key => s.insertKey key
  | .head key value => s.insertHead key value

/-- The ledger that holds exactly these entries; of two heads with one key the later stays. -/
def ofEntries (entries : List Entry) : Ledger :=
  entries.foldl insertEntry empty

/-- The ledger after it was closed and opened again. -/
def reopen (s : Ledger) : Ledger :=
  ofEntries s.entries

/-! ## Entries as text -/

/-- The bytes that pairs of hexadecimal digits stand for. -/
def bytesOfHex? : List Char → Option Bytes
  | [] => some []
  | [_] => none
  | high :: low :: rest =>
    match Text.hexDigit? high, Text.hexDigit? low, bytesOfHex? rest with
    | some h, some l, some bytes => some (.ofNat (16 * h + l) :: bytes)
    | _, _, _ => none

namespace Entry

/-- The line of an entry. -/
def line : Entry → String
  | block key => String.ofList ('b' :: key.flatMap Text.hexByte)
  | head key value =>
    String.ofList ('h' :: key.flatMap Text.hexByte ++ ' ' :: value.flatMap Text.hexByte)

/-- The entry of a line. -/
def ofLine? (line : String) : Option Entry :=
  match line.toList with
  | 'b' :: key => (bytesOfHex? key).map .block
  | 'h' :: rest =>
    match bytesOfHex? (rest.takeWhile (· ≠ ' ')),
        bytesOfHex? ((rest.dropWhile (· ≠ ' ')).drop 1) with
    | some key, some value => some (.head key value)
    | _, _ => none
  | _ => none

end Entry

/-- The text of a ledger: the lines of its entries, each of them ended. -/
def text (s : Ledger) : String :=
  String.join (s.entries.map fun entry => entry.line ++ "\n")

/-- The ledger that a text stands for.  Empty lines do not count. -/
def ofText? (text : String) : Option Ledger :=
  let lines := (Text.parts '\n' text.toList).filter (!·.isEmpty)
  (lines.mapM fun line => Entry.ofLine? (String.ofList line)).map ofEntries

end Ledger
end ChainCoverage
