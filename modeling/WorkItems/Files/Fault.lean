import WorkItems.Json.Reader

namespace WorkItems

/-! What can go wrong with a file, and reading a document from the bytes of one. -/

inductive FileFault where
  | notFound
  | isFolder
  | notFolder
  | alreadyExists
  /-- No file can have the name. -/
  | unnameable
  /-- The bytes are not text in UTF-8. -/
  | notText
  /-- The text is not JSON, or it cannot be read on this machine. -/
  | unread (fault : Json.ReadFault)
deriving DecidableEq

/-- What reading a file gives: its bytes, or why there are none. -/
abbrev Contents := Except FileFault ByteArray

/-- The document in a file.  A mark of the byte order is not white space, so that none may stand
before it. -/
def Contents.document (limits : Limits) (contents : Contents) : Except FileFault Value := do
  match String.fromUTF8? (← contents) with
  | none => throw .notText
  | some text => (Json.read limits text).mapError .unread

end WorkItems
