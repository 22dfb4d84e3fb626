import Fulfilment.Json.Read
import Fulfilment.Json.Render
import Fulfilment.Wire.Basic

/-!
# Wire text

A value travels as the text of its document, or as the bytes of that text.
-/
namespace Fulfilment.Wire

variable {α : Type} [Wire α]

def toText (a : α) : String := (toJson a).toText

def ofText? (s : String) : Option α := (Json.ofText? s).bind ofJson?

def toBytes (a : α) : ByteArray := (toText a).toUTF8

def ofBytes? (bytes : ByteArray) : Option α := (Json.ofBytes? bytes).bind ofJson?

end Fulfilment.Wire
