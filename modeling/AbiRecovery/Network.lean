import AbiRecovery.Address

/-!
# Nodes and the calls to them

A node is asked for the code at an address and answers with bytes or with a failure. At an address
without a contract there is empty code.
-/
namespace AbiRecovery

/-- What a node answers. -/
inductive Reply where
  | code (code : Bytes)
  | failure (text : Text)
  deriving DecidableEq, Repr

/-- The nodes, by their addresses. What one answers does not change during a run. -/
structure Network where
  /-- What the node at an address answers when it is asked for the code of a contract. -/
  reply : Text → Address → Reply

structure Client where
  uri : Text
  /-- How many seconds an answer may take. -/
  timeout : Int
  deriving DecidableEq, Repr

structure Call where
  client : Client
  address : Address
  deriving DecidableEq, Repr

def Call.uri (call : Call) : Text := call.client.uri

end AbiRecovery
