import RscdkChain.Client.Rpc

namespace RscdkChain

structure VMAPIClient where
  vmApiClient : Option Unit
  inApply : Bool

namespace VMAPIClient

def new : VMAPIClient := ⟨none, false⟩

def init (self : VMAPIClient) (opens : ℕ → Except String Unit) (split : Except String Unit) :
    Except Abort VMAPIClient :=
  if self.vmApiClient.isNone then do
    let (_, client) ← newVmApiClient opens split
    let client ← unwrap client
    pure { self with vmApiClient := some client }
  else pure self

def setInApply (self : VMAPIClient) (inApply : Bool) : VMAPIClient := { self with inApply }

def isInApply (self : VMAPIClient) : Bool := self.inApply

def close (self : VMAPIClient) : VMAPIClient :=
  if self.vmApiClient.isSome then { self with vmApiClient := none } else self

def derefMut (self : VMAPIClient) : Except Abort Unit :=
  if !self.isInApply then .error .panic else unwrapOption self.vmApiClient

end VMAPIClient

structure ChainTesterClient where
  client : Option Unit

def ChainTesterClient.new : ChainTesterClient := ⟨none⟩

def ChainTesterClient.close (self : ChainTesterClient) : ChainTesterClient :=
  if self.client.isSome then { self with client := none } else self

@[simp] theorem ChainTesterClient.close_client (self : ChainTesterClient) :
    self.close.client = none := by
  unfold close
  split <;> simp_all

structure Clients where
  vm : VMAPIClient
  chainTester : ChainTesterClient

def Clients.new : Clients := ⟨VMAPIClient.new, ChainTesterClient.new⟩

def getVmApiClient (s : Clients) (opens : ℕ → Except String Unit) (split : Except String Unit) :
    Except Abort Clients :=
  if s.vm.vmApiClient.isNone then do
    let vm ← s.vm.init opens split
    pure { s with vm }
  else pure s

def initVmApiClient : Clients → (ℕ → Except String Unit) → Except String Unit →
    Except Abort Clients :=
  getVmApiClient

def closeVmApiClient (s : Clients) : Clients := { s with vm := s.vm.close }

/-- What the sockets and the debugger server give one `ChainTesterClient::init`. -/
structure Connect where
  channelOpen : Except String Unit
  channelSplit : Except String Unit
  initVmApi : Except String Unit
  vmOpens : ℕ → Except String Unit
  vmSplit : Except String Unit
  initApplyRequest : Except String Unit
  initApplyRequestServer : Except Abort Unit

def ChainTesterClient.init (s : Clients) (c : Connect) : Except Abort Clients :=
  if s.chainTester.client.isSome then pure s else do
    unwrap c.channelOpen
    let client ← unwrap c.channelSplit
    unwrap c.initVmApi
    let s ← initVmApiClient s c.vmOpens c.vmSplit
    unwrap c.initApplyRequest
    c.initApplyRequestServer
    pure { s with chainTester := ⟨some client⟩ }

def getChainTesterClient (s : Clients) (c : Connect) : Except Abort Clients :=
  if s.chainTester.client.isNone then ChainTesterClient.init s c else pure s

def closeChainTesterClient (s : Clients) : Clients :=
  { s with chainTester := s.chainTester.close }

def vmApiCall (s : Clients) (opens : ℕ → Except String Unit) (split : Except String Unit) :
    Except Abort Clients := do
  let s ← getVmApiClient s opens split
  s.vm.derefMut
  pure s

/-- The calls on the two globals; `set_in_apply` comes from the apply request server
(server.rs, not in src/). -/
inductive ClientOp
  | getVmApiClient (opens : ℕ → Except String Unit) (split : Except String Unit)
  | initVmApiClient (opens : ℕ → Except String Unit) (split : Except String Unit)
  | closeVmApiClient
  | setInApply (inApply : Bool)
  | vmApiCall (opens : ℕ → Except String Unit) (split : Except String Unit)
  | getChainTesterClient (c : Connect)
  | closeChainTesterClient

namespace Clients

def step (s : Clients) : ClientOp → Except Abort Clients
  | .getVmApiClient opens split => getVmApiClient s opens split
  | .initVmApiClient opens split => initVmApiClient s opens split
  | .closeVmApiClient => pure (closeVmApiClient s)
  | .setInApply inApply => pure { s with vm := s.vm.setInApply inApply }
  | .vmApiCall opens split => vmApiCall s opens split
  | .getChainTesterClient c => getChainTesterClient s c
  | .closeChainTesterClient => pure (closeChainTesterClient s)

def run (s : Clients) (ops : List ClientOp) : Except Abort Clients :=
  ops.foldlM step s

end Clients

variable {opens : ℕ → Except String Unit} {split : Except String Unit}

namespace Clients

variable {s s' : Clients}

end Clients

end RscdkChain
