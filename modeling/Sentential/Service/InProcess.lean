import Sentential.Service.Framework

/-!
# A framework in process

A framework whose requests are values: a method, a path and a JSON value for a body. It matches
paths and methods letter by letter. A path with slashes at its end is redirected where the path
without them is served. Four pages of documentation are its own.
-/
namespace Sentential

/-- The call of a route, with the expression where it takes one. -/
def Route.call? (route : Route) (expression? : Option String) : Option Call :=
  match route with
  | .health => some .health
  | .connectives => some .connectives
  | .evaluate => expression?.map .evaluate
  | .parse => expression?.map .parse
  | .truthTable => expression?.map .truthTable
  | .normalForms => expression?.map .normalForms

namespace InProcess

structure Request where
  method : String
  path : String
  body : Option Json

inductive BodyError where
  | missingBody
  | notObject
  | missingExpression
  | notText
  deriving DecidableEq, Repr

namespace BodyError

def code : BodyError → String
  | missingBody | missingExpression => "missing"
  | notObject => "model_attributes_type"
  | notText => "string_type"

def location : BodyError → List String
  | missingBody | notObject => ["body"]
  | missingExpression | notText => ["body", "expression"]

end BodyError

/-- The texts of pages, of failures and of the details of bad bodies are left out. -/
inductive Response where
  | json (reply : Reply)
  | page
  | redirect (path : String)
  | invalid (error : BodyError)
  | failure

namespace Response

def status : Response → Nat
  | json reply => reply.status
  | page => 200
  | redirect _ => 307
  | invalid _ => 422
  | failure => 500

def body? : Response → Option Json
  | json reply => some reply.content
  | _ => none

end Response

namespace Request

variable (r : Request)

def expression : Except BodyError String :=
  match r.body with
  | none => .error .missingBody
  | some (.object fields) =>
    match fields.lookup "expression" with
    | none => .error .missingExpression
    | some (.text expression) => .ok expression
    | some _ => .error .notText
  | some _ => .error .notObject

def route? : Option Route := Route.all.find? fun route => route.path = r.path

def call? : Option Call :=
  r.route?.bind fun route =>
    if r.method = route.method then route.call? r.expression.toOption else none

def pages : List String := ["/openapi.json", "/docs", "/docs/oauth2-redirect", "/redoc"]

def reject (status : Nat) (reason : String) : Response :=
  .json ⟨status, Service.detail (.text reason)⟩

/-- The path without the slashes at its end. -/
def bare : String := String.ofList (r.path.toList.reverse.dropWhile (· = '/')).reverse

def redirects : Bool :=
  r.path ≠ r.bare && (pages ++ Route.all.map Route.path).contains r.bare

/-- The response to a request that is no call. -/
def own : Response :=
  match r.route? with
  | some route =>
    match r.expression with
    | .error e => if r.method = route.method then .invalid e else reject 405 "Method Not Allowed"
    | .ok _ => reject 405 "Method Not Allowed"
  | none =>
    if pages.contains r.path then
      if r.method = "GET" || r.method = "HEAD" then .page else reject 405 "Method Not Allowed"
    else if r.redirects then .redirect r.bare
    else reject 404 "Not Found"

end Request

def deliver : Except Raised Json → Response
  | .ok body => .json ⟨200, body⟩
  | .error (.http status detail) => .json ⟨status, Service.detail detail⟩
  | .error (.malformed e) => .json (Service.onMalformed e)
  | .error (.unhandled _) => .failure

end InProcess

def Framework.inProcess : Framework where
  Request := InProcess.Request
  Response := InProcess.Response
  method := InProcess.Request.method
  path := InProcess.Request.path
  expression? r := r.expression.toOption
  call? := InProcess.Request.call?
  own := InProcess.Request.own
  deliver _ := InProcess.deliver
  failure _ := .failure
  status := InProcess.Response.status
  body? := InProcess.Response.body?

theorem Route.call?_eq_some_iff {route : Route} {expression? : Option String} {c : Call} :
    route.call? expression? = some c ↔
      c.route = route ∧ ∀ e ∈ c.expression?, expression? = some e := by
  constructor
  · intro h
    cases route with
    | health | connectives =>
      cases h
      exact ⟨rfl, nofun⟩
    | evaluate | parse | truthTable | normalForms =>
      obtain ⟨e, he, rfl⟩ := Option.map_eq_some_iff.mp h
      exact ⟨rfl, fun _ hmem => Option.mem_some.mp hmem ▸ he⟩
  · rintro ⟨rfl, he⟩
    cases c with
    | health | connectives => rfl
    | evaluate e | parse e | truthTable e | normalForms e =>
      rw [he e rfl]
      rfl

namespace InProcess.Request

theorem route?_eq_some_iff {r : Request} {route : Route} :
    r.route? = some route ↔ r.path = route.path := by
  unfold route?
  constructor
  · intro h
    have hpath := List.find?_some h
    exact (of_decide_eq_true hpath).symm
  · intro h
    rw [h]
    cases route <;> decide

theorem call?_eq_some_iff {r : Request} {c : Call} :
    r.call? = some c ↔ r.method = c.route.method ∧ r.path = c.route.path ∧
      ∀ e ∈ c.expression?, r.expression.toOption = some e := by
  rw [call?, Option.bind_eq_some_iff]
  simp only [route?_eq_some_iff, Option.ite_none_right_eq_some, Route.call?_eq_some_iff]
  constructor
  · rintro ⟨_, hpath, hm, rfl, he⟩
    exact ⟨hm, hpath, he⟩
  · rintro ⟨hm, hpath, he⟩
    exact ⟨_, hpath, hm, rfl, he⟩

end InProcess.Request

theorem Framework.inProcess_documented : Framework.inProcess.Documented where
  calls := InProcess.Request.call?_eq_some_iff
  returned _ _ := ⟨rfl, rfl⟩
  http _ _ _ := ⟨rfl, rfl⟩
  malformed _ _ := ⟨rfl, rfl⟩
  unhandled _ _ := rfl
  failed _ := rfl

end Sentential
