import Loom.Files
import Loom.Xml.Content
import Loom.Xml.Doctype.Reader
import Loom.Xml.Encoding

/-!
# Reading Documents

A document is a declaration, a document type, one element, and blanks, comments and
instructions around them. Line ends are made plain before anything is read.

A document given as text is its own bytes, whatever encoding it names.
-/

namespace Loom.Xml

def document? (standsAlone : Bool) (cs : List Char) : Option Element := do
  if !cs.all fun c => isAllowed c.toNat then none
  else
    let cs := plainLines cs
    let rest ← skipAsides (cs.length + 1) cs
    let (d, rest) ← (Doctype.read standsAlone).run rest
    let rest ← skipAsides (rest.length + 1) rest
    let (root, rest) ← element? d rest
    let rest ← skipAsides (rest.length + 1) rest
    if rest.isEmpty then some root else none

/-- The root of a document. `change` tells the encoding that its declaration asks
    for. -/
def readWith (change : Encoding → Declaration → Except Fault Encoding) (bs : List UInt8) :
    Except Fault Element := do
  let orMalformed {α : Type} (x : Option α) : Except Fault α :=
    match x with
    | some a => .ok a
    | none => .error .malformed
  let (encoding, bs) := Encoding.ofBytes bs
  let (d, length) ← orMalformed (declaration? (encoding.asciiStart bs))
  let rest := bs.drop (length * encoding.width)
  let cs ← orMalformed ((← change encoding d).decode? rest)
  orMalformed (document? d.standsAlone cs)

def readBytes (bs : List UInt8) : Except Fault Element :=
  readWith (fun e d => (d.encoding.map e.named).getD (.ok e)) bs

def read? (text : String) : Option Element :=
  (readWith (fun e _ => .ok e) (Text.utf8 text)).toOption

/-!
### Feeds

A feed is a document whose entries have titles.
-/

def Fault.error : Fault → Error
  | malformed => .badMarkup
  | charset .unknown name => .unknownCharset name
  | charset .wide _ => .wideCharset
  | charset .foreign _ => .badMarkup

def feedTitle (fs : Files) (path : String) : Except Error (Option String) :=
  match fs.text? path with
  | none => .error (.missing path)
  | some text =>
    match readBytes (Text.utf8 text) with
    | .ok root => .ok (root.entryTitle?.bind Element.text)
    | .error fault => .error fault.error

end Loom.Xml
