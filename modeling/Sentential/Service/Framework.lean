import Sentential.Service.Handler

/-!
# Web frameworks

The service leaves to a web framework which requests are valid calls, what is answered to all
others, and how a response is made of what a handler returns or raises. The framework is a
parameter. It sees neither the environment nor the settings of the service, and what it is relied on
for is documented behaviour of it.
-/
namespace Sentential

structure Framework where
  Request : Type
  Response : Type
  method : Request → String
  path : Request → String
  /-- The expression that a body with no fault gives. -/
  expression? : Request → Option String
  call? : Request → Option Call
  /-- The response to a request that is no call. -/
  own : Request → Response
  /-- The response to a call that ended so. -/
  deliver : Request → Except Raised Json → Response
  /-- The response to a call that ended in an error without a reply. -/
  failure : Request → Response
  status : Response → Nat
  body? : Response → Option Json

namespace Framework

def Sends (F : Framework) (response : F.Response) (reply : Reply) : Prop :=
  F.status response = reply.status ∧ F.body? response = some reply.content

/-- What a framework is relied on for. It calls a handler for the method and the path of its route,
with the expression of the body where the handler takes one. A returned value is sent as it is, a
raised reply under the key of details, an error with a reply by that reply. All other errors are
failures of the server. -/
structure Documented (F : Framework) : Prop where
  calls {r : F.Request} {c : Call} : F.call? r = some c ↔
    F.method r = c.route.method ∧ F.path r = c.route.path ∧
      ∀ e ∈ c.expression?, F.expression? r = some e
  returned (r : F.Request) (body : Json) : F.Sends (F.deliver r (.ok body)) ⟨200, body⟩
  http (r : F.Request) (status : Nat) (detail : Json) :
    F.Sends (F.deliver r (.error (.http status detail))) ⟨status, .object [("detail", detail)]⟩
  malformed (r : F.Request) (error : SyntaxError) :
    F.Sends (F.deliver r (.error (.malformed error))) (Service.onMalformed error)
  unhandled (r : F.Request) (error : Unhandled) :
    F.deliver r (.error (.unhandled error)) = F.failure r
  failed (r : F.Request) : F.status (F.failure r) = 500

/-- The request posts an expression to the route. -/
structure Posts (F : Framework) (r : F.Request) (route : Route) (e : String) : Prop where
  method : F.method r = "POST"
  path : F.path r = route.path
  expression : F.expression? r = some e

/-- The request posts an expression for its table or for its normal forms. -/
def Tabulates (F : Framework) (r : F.Request) (e : String) : Prop :=
  F.Posts r .truthTable e ∨ F.Posts r .normalForms e

def NeedsSettings (F : Framework) (r : F.Request) : Prop := ∃ e, F.Tabulates r e

end Framework

end Sentential
