import Telepathy.Error
import Telepathy.Group.Membership

set_option autoImplicit false

/-!
# What clients may do with a group

The flags of a group say whether clients may add, remove and rescind members. The checks here look
at the contacts of a request in ascending order and refuse it as a whole at the first that is not
allowed; they change nothing.
-/

namespace Telepathy

/-- Why a client's request on a group is refused. -/
inductive GroupRefusal
  | mayNotAdd (h : Handle)
  | mayNotRemove (h : Handle)
  | notInGroup (h : Handle)
  | noSpecificHandles
  | notMember (h : Handle)
deriving DecidableEq, Repr

namespace GroupRefusal

/-- The text of a refusal. -/
def message : GroupRefusal → String
  | mayNotAdd h => s!"handle {h.text} cannot be added to this group"
  | mayNotRemove h => s!"handle {h.text} cannot be removed from this group"
  | notInGroup h => s!"handle {h.text} is not a current or pending member"
  | noSpecificHandles => "channel doesn't have channel specific handles"
  | notMember h => s!"handle {h.text} is not a member"

/-- The kind of error a client sees. -/
def kind : GroupRefusal → ErrorKind
  | mayNotAdd _ | mayNotRemove _ => .permissionDenied
  | notInGroup _ | noSpecificHandles => .notAvailable
  | notMember _ => .invalidArgument

/-- The error a client sees. -/
def toError (r : GroupRefusal) : Error := ⟨r.kind, r.message⟩

end GroupRefusal

namespace Membership

/-- Whether a client may make `h` a member: full members are members already, local-pending ones
wait to be accepted, and all others need the flag. -/
def mayAdd (m : Membership) (h : Handle) : Bool :=
  match m.placeOf h with
  | .member | .localPending => true
  | .remotePending | .outside => m.flags.has .canAdd

/-- The contacts a client's request would add, or why it may not. -/
def checkAdd (m : Membership) (contacts : SortedSet Handle) :
    Except GroupRefusal (SortedSet Handle) :=
  -- One contact that may not be added refuses them all.
  match contacts.toList.find? fun h => !m.mayAdd h with
  | some h => .error (.mayNotAdd h)
  | none => .ok (contacts.diff m.members)

/-- Why a client may not remove `h`, if so. -/
def removalRefusal? (m : Membership) (h : Handle) : Option GroupRefusal :=
  match m.placeOf h with
  | .outside => some (.notInGroup h)
  | .member | .localPending => if m.flags.has .canRemove then none else some (.mayNotRemove h)
  | .remotePending => if m.flags.has .canRescind then none else some (.mayNotRemove h)

/-- Whether a client may remove all of `contacts`. -/
def checkRemove (m : Membership) (contacts : SortedSet Handle) : Except GroupRefusal Unit :=
  match contacts.toList.findSome? m.removalRefusal? with
  | some refusal => .error refusal
  | none => .ok ()

/-- The recorded owners of some members. -/
def ownersOf (m : Membership) (handles : List Handle) :
    Except GroupRefusal (List (Option Handle)) :=
  if !m.flags.has .channelSpecificHandles then .error .noSpecificHandles
  else
    match handles.find? fun h => m.placeOf h ≠ .member with
    | some h => .error (.notMember h)
    | none => .ok (handles.map m.owners.get?)

end Membership

end Telepathy
