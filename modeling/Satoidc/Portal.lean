import Satoidc.AccessRequests
import Satoidc.Dashboard
import Satoidc.Foundation.Coupling

/-! Access requests and developer pages together. What the admins grant on one side is
what lets users onto the pages of the other. -/

namespace Satoidc.Portal
open Foundation

abbrev State := World PermissionStore AccessRequests.Tab × World Dashboard.Shared Dashboard.Tab

abbrev Event := (Nat × AccessRequests.Input) ⊕ (Nat × Dashboard.Input)

/-- The permissions table, which both sides read. -/
def tell (access : World PermissionStore AccessRequests.Tab) : Nat × Dashboard.Input :=
  (0, .permissions access.shared.permissions.rows)

/-- A developer page does not write permissions itself. -/
def read (_ : World PermissionStore AccessRequests.Tab) : Nat × Dashboard.Input → Option (Nat × Dashboard.Input)
  | (_, .permissions _) => none
  | event => some event

def step (nfkc : String → String) : State → Event → Option State := coupled AccessRequests.step (Dashboard.step nfkc) tell read

def initial (store : PermissionStore) (clients : Table RegisteredClient (Keyed RegisteredClient.id)) : State :=
  (AccessRequests.initial store, Dashboard.initial ⟨clients, store.permissions.rows⟩)

end Satoidc.Portal
