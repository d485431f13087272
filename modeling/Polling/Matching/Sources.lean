import Polling.Address.Parser
import Polling.Directory
import Polling.Error
import Polling.Text
import Std.Data.ExtTreeMap

namespace Polling

/-- What filter expressions select. One that is not in the table selects nothing. -/
structure FilterTable where
  results : Std.ExtTreeMap String (List Address) := ∅
  failing : List String := []
  queries : List String := []

namespace FilterTable

def set (t : FilterTable) (expression : String) (addresses : List Address) : FilterTable :=
  { t with results := t.results.insert expression addresses }

def fail (t : FilterTable) (expression : String) : FilterTable :=
  { t with failing := expression :: t.failing }

def evaluate (t : FilterTable) (expression : String) : Except CallError (List Address) :=
  if expression ∈ t.failing then .error (.filterFailed s!"cannot evaluate '{expression}'")
  else .ok (t.results.getD expression [])

def record (t : FilterTable) (expressions : List String) : FilterTable :=
  { t with queries := t.queries ++ expressions }

end FilterTable

namespace Address

/-- The address on one line, if there is one. A `#` starts a comment, and blanks around the address
do not count. -/
def ofLine? (line : List Char) : Option Address :=
  ofChars? (Text.trim (line.takeWhile (· ≠ '#')))

def listing (content : List Char) : List Address := (Text.lines content).filterMap ofLine?

end Address

namespace ListUrl

/-- A list URL is a path, or a path after `file:` or `file://`. -/
def path (url : String) : String :=
  match "file://".toList.isPrefixOf? url.toList, "file:".toList.isPrefixOf? url.toList with
  | some rest, _ => String.ofList rest
  | none, some rest => String.ofList rest
  | none, none => url

def displayed (d : Directory) (relative : Bool) (path : String) : String :=
  if relative then d.pathOf path else path

/-- The addresses of the list at a URL. A path leads nowhere if it is absolute, or if relative ones
are not taken from the directory. -/
def resolve (d : Directory) (relative : Bool) (url : String) : Except CallError (List Address) :=
  match if relative then d.read (path url) else .error "no such file" with
  | .ok content => .ok (Address.listing content.toList)
  | .error detail =>
    .error (.backendFailed s!"failed to read {displayed d relative (path url)}: {detail}")

end ListUrl

end Polling
