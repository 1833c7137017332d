import ConnectionPool.Failure

namespace ConnectionPool.Failure

inductive Problem
  | failure (f : Failure)
  | foreign (text : String)
  deriving DecidableEq

namespace Problem

def text : Problem → String
  | failure f => f.text
  | foreign t => t

def cause (l : Link) : Problem → Failure
  | failure f => .because l f
  | foreign t => .foreign l t

end Problem

inductive Draft
  | fresh (kind : Kind)
  | explain (kind : Kind) (context : String)
  | foreign (text : String)
  | create (link : Link)
  | because (kind : Kind) (context : String)
  | conceal (kind : Kind) (context : String)
  | moreContext (context : String)
  | toUpstream
  | toCaller

namespace Draft

def apply : Draft → Option Problem → Option Problem
  | fresh k, _ => some (.failure (.fresh k))
  | explain k c, _ => some (.failure (.explain k c))
  | foreign t, _ => some (.foreign t)
  | create l, none => some (.failure (.root l))
  | create l, some p => some (.failure (p.cause l))
  | because k c, some p => some (.failure (p.cause { kind := k, context := some c }))
  | conceal k c, some (.failure f) =>
    some (.failure (.concealed { kind := k, context := some c } f))
  | moreContext c, some (.failure f) => some (.failure (f.moreContext c))
  | toUpstream, some (.failure f) => some (.failure f.toUpstream)
  | toCaller, some (.failure f) => some (.failure f.toCaller)
  | _, p => p

def run (ds : List Draft) : Option Problem := ds.foldl (fun p d => d.apply p) none

end Draft

end ConnectionPool.Failure
