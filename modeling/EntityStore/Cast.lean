set_option autoImplicit false

namespace EntityStore

inductive Access where
  | read
  | write
deriving DecidableEq, Repr

inductive Cast where
  | value (access : Access)
  | run (access : Access)
deriving DecidableEq, Repr

namespace Cast

def text : Cast → String
  | value .read => "from_bytes"
  | value .write => "from_bytes_mut"
  | run .read => "cast_slice"
  | run .write => "cast_slice_mut"

end Cast

inductive CastFlaw where
  | otherSize
  | unaligned
  /-- Bytes are left after the last whole value. -/
  | remainder
deriving DecidableEq, Repr

namespace CastFlaw

def text : CastFlaw → String
  | otherSize => "SizeMismatch"
  | unaligned => "TargetAlignmentGreaterAndInputNotAligned"
  | remainder => "OutputSliceWouldHaveSlop"

end CastFlaw

end EntityStore
