import Xsmp.Authority.Entry
import Xsmp.Authority.Lock

/-!
# Authority files

A session puts two entries for its own network id into the authority file when
it starts and takes them out when it ends. Entries of other network ids are
left alone; entries without one are dropped. The file is changed under its
lock.
-/

namespace Xsmp

/-- The secret of an entry. -/
abbrev Cookie := Bytes

namespace AuthorityEntry

/-- The name of the only way to authenticate. -/
def cookieAuth : String := "MIT-MAGIC-COOKIE-1"

/-- An entry that lets in whoever knows the cookie. -/
def ofCookie (protocol networkId : String) (cookie : Cookie) : AuthorityEntry where
  protocolName := protocol
  protocolData := []
  networkId
  authName := cookieAuth
  authData := cookie

/-- The two entries of a session, one for the connection and one for the session
protocol on top of it. -/
def ofSession (networkId : String) (connection session : Cookie) : List AuthorityEntry :=
  [ofCookie "ICE" networkId connection, ofCookie "XSMP" networkId session]

/-- Whether an entry is another session's. -/
def foreign (networkId : String) (entry : AuthorityEntry) : Bool :=
  !entry.networkId.isEmpty && entry.networkId != networkId

end AuthorityEntry

namespace Authority

variable (authority : Authority)

/-- The entries of the file. A file that is not there has none. -/
def read (tree : FileTree) : Except AuthorityError (List AuthorityEntry) :=
  match tree.read authority.path with
  | .ok contents =>
    match AuthorityEntry.decodeAll? contents with
    | some entries => .ok entries
    | none => .error (.truncated authority.path)
  | .error .notFound => .ok []
  | .error cause => .error (.file authority.path cause)

def write (tree : FileTree) (entries : List AuthorityEntry) (now : Int) :
    Except AuthorityError FileTree :=
  match tree.write authority.path (AuthorityEntry.encodeAll entries) now with
  | .ok tree => .ok tree
  | .error cause => .error (.file authority.path cause)

/-- Replace the entries of a network id by new ones, which come last. The lock has to be
held. -/
def replace (tree : FileTree) (networkId : String) (new : List AuthorityEntry) (now : Int) :
    Except AuthorityError FileTree := do
  let entries ← authority.read tree
  authority.write tree (entries.filter (AuthorityEntry.foreign networkId) ++ new) now

/-- Replace the entries of a network id and give back the lock, which is held. -/
def replaceAndRelease (tree : FileTree) (networkId : String) (new : List AuthorityEntry)
    (now : Int) : FileTree × Except AuthorityError Unit :=
  match authority.replace tree networkId new now with
  | .ok tree => (authority.release now tree, .ok ())
  | .error error => (authority.release now tree, .error error)

/-- Replace the entries of a network id under the lock, with nobody else acting
meanwhile, and tell how long the lock was waited for. -/
def update (tree : FileTree) (networkId : String) (new : List AuthorityEntry) (now : Int) :
    FileTree × Except AuthorityError Unit × Nat :=
  match authority.acquire now tree with
  | (tree, .ok (), waited) =>
    let (tree, result) := authority.replaceAndRelease tree networkId new now
    (tree, result, waited)
  | (tree, .error error, waited) => (tree, .error error, waited)

/-- Put the entries of a session into the file. -/
def addNetwork (tree : FileTree) (networkId : String) (connection session : Cookie) (now : Int) :
    FileTree × Except AuthorityError (List AuthorityEntry) × Nat :=
  let new := AuthorityEntry.ofSession networkId connection session
  let (tree, result, waited) := authority.update tree networkId new now
  (tree, result.map fun _ => new, waited)

/-- Take the entries of a session out of the file. -/
def removeNetwork (tree : FileTree) (networkId : String) (now : Int) :
    FileTree × Except AuthorityError Unit × Nat :=
  authority.update tree networkId [] now

end Authority

end Xsmp
