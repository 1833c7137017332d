/-! Failures: what went wrong, on whose side, in which circumstances, and the chain of causes
below.  The text of a failure names the side and the kind of a link only where they differ from
the link around it. -/

namespace ConnectionPool

namespace Failure

inductive Kind
  | poolTimeout
  | interrupted
  | poolClosed
  | invalidArgument
  | connectTimedout
  | connectRefused
  | connectError
  | connectionClosed
  | readError
  | internalError
  | custom (name : String)
  deriving DecidableEq

def Kind.name : Kind → String
  | .poolTimeout => "PoolTimeout"
  | .interrupted => "Interrupted"
  | .poolClosed => "PoolClosed"
  | .invalidArgument => "InvalidArgument"
  | .connectTimedout => "ConnectTimedout"
  | .connectRefused => "ConnectRefused"
  | .connectError => "ConnectError"
  | .connectionClosed => "ConnectionClosed"
  | .readError => "ReadError"
  | .internalError => "InternalError"
  | .custom name => name

inductive Origin
  | upstream
  | caller
  | internal
  | unset
  deriving DecidableEq

def Origin.name : Origin → String
  | .upstream => "Upstream"
  | .caller => "Caller"
  | .internal => "Internal"
  | .unset => ""

structure Link where
  kind : Kind
  origin : Origin := .unset
  context : Option String := none
  deriving DecidableEq

def Link.text (outer : Option Link) (l : Link) : String :=
  (if outer.map Link.origin = some l.origin then "" else l.origin.name) ++
  (if outer.map Link.kind = some l.kind then "" else " " ++ l.kind.name) ++
  (match l.context with
    | some c => " context: " ++ c
    | none => "")

end Failure

/-- A failure with its causes.  A foreign cause is known by its text alone; a concealed one is a
failure too, but the chain does not look into it. -/
inductive Failure
  | root (link : Failure.Link)
  | foreign (link : Failure.Link) (cause : String)
  | because (link : Failure.Link) (cause : Failure)
  | concealed (link : Failure.Link) (cause : Failure)
  deriving DecidableEq

namespace Failure

def link : Failure → Link
  | root l => l
  | foreign l _ => l
  | because l _ => l
  | concealed l _ => l

def kind (f : Failure) : Kind := f.link.kind

def origin (f : Failure) : Origin := f.link.origin

def hasCause : Failure → Bool
  | root _ => false
  | foreign _ _ => true
  | because _ _ => true
  | concealed _ _ => true

def mapLink (g : Link → Link) : Failure → Failure
  | root l => root (g l)
  | foreign l t => foreign (g l) t
  | because l c => because (g l) c
  | concealed l c => concealed (g l) c

def textWithin (outer : Option Link) : Failure → String
  | root l => l.text outer
  | foreign l t => l.text outer ++ " cause: " ++ t
  | because l c => l.text outer ++ " cause: " ++ c.textWithin (some l)
  | concealed l c => l.text outer ++ " cause: " ++ c.textWithin none

def text (f : Failure) : String := f.textWithin none

def links : Failure → List Link
  | root l => [l]
  | foreign l _ => [l]
  | because l c => l :: c.links
  | concealed l _ => [l]

def unrecognised : Failure → Option String
  | root _ => none
  | foreign _ t => some t
  | because _ c => c.unrecognised
  | concealed _ c => some c.text

def fresh (kind : Kind) : Failure := root { kind }

def explain (kind : Kind) (context : String) : Failure := root { kind, context := some context }

def internally (kind : Kind) (context : String) : Failure :=
  root { kind, origin := .internal, context := some context }

def setOrigin (o : Origin) (f : Failure) : Failure := f.mapLink fun l => { l with origin := o }

def toUpstream (f : Failure) : Failure := f.setOrigin .upstream

def toCaller (f : Failure) : Failure := f.setOrigin .caller

def moreContext (context : String) (f : Failure) : Failure :=
  because { kind := f.kind, origin := f.origin, context := some context } f

@[simp] theorem link_moreContext (c : String) (f : Failure) :
    (f.moreContext c).link = { kind := f.kind, origin := f.origin, context := some c } := rfl

@[simp] theorem links_moreContext (c : String) (f : Failure) :
    (f.moreContext c).links =
      { kind := f.kind, origin := f.origin, context := some c } :: f.links := rfl

@[simp] theorem unrecognised_moreContext (c : String) (f : Failure) :
    (f.moreContext c).unrecognised = f.unrecognised := rfl

end Failure

end ConnectionPool
