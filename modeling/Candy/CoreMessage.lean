import Candy.Net

/-! What the threads of a client put into each other's queues, src/core/message.h.
A PubInfo travels as the bytes of the struct and is read back as the struct. -/
namespace Candy.CoreMsg

/- nearby is the source's local. -/
structure PubInfo where
  src : IP4
  dst : IP4
  ip : IP4
  port : BitVec 16
  nearby : Bool
  deriving DecidableEq, Repr

inductive Msg where
  | packet (data : Bytes)
  | tunAddr (cidr : Bytes)
  | sysRt (data : Bytes)
  | tryP2P (ip : Bytes)
  | pubInfo (info : PubInfo)
  | discovery
  deriving DecidableEq, Repr

inductive Queue where
  | tun
  | peer
  | ws
  deriving DecidableEq, Repr

end Candy.CoreMsg
