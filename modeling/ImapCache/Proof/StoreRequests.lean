import ImapCache.Model.Protocol

/-!
# Requests of STORE

An item such as `+FLAGS.SILENT` says what a STORE does with the flags after it. Without one the request
is read as a replacement, and of the arguments after one only the first is read.
-/

namespace ImapCache.StoreRequests
open Protocol Commands

def sign : StoreMode → String
  | .replace => ""
  | .add => "+"
  | .remove => "-"

end ImapCache.StoreRequests
