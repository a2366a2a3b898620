import PTBridge.Stream.Bytes

/-!
# `turbotunnel`: constants and client ids

`consts.go` and `clientid.go`.
-/

namespace PTBridge.Snowflake

open PTBridge.Stream

/-- `Token`: how a client opts into turbo tunnel mode. -/
def token : Bytes := [0x12, 0x93, 0x60, 0x5d, 0x27, 0x81, 0x75, 0xf5]

/-- The size of receive and send queues. -/
def queueSize : Nat := 32

/-- `ClientID`, eight bytes. -/
structure ClientID where
  bytes : Bytes
  size : bytes.length = 8
  deriving DecidableEq

end PTBridge.Snowflake
