import DocRoutes.Handler.Chain

/-!
# Stock middleware

Handlers for trying out chains. Each leaves a mark when the request reaches it.
-/

namespace DocRoutes.Handler

/-- What a stock handler does. -/
inductive Stock where
  | pass
  | setLocal (name : String) (value : Json)
  /-- Set a local field to the value of a header, null without it. -/
  | localFromHeader (name header : String)
  /-- Leave another mark on the way back, and perhaps replace the status. -/
  | after (status : Option Status)
  | answer (response : Response)
  /-- Answer with the fields of the request. -/
  | echo

/-- The fields of a request as JSON. -/
def echoed (r : Request) : Json :=
  .obj [("body", .obj r.body.entries), ("locals", .obj r.locals.entries),
    ("params", .obj r.params.entries), ("path", .str r.path), ("query", .obj r.query.entries)]

def unchanged (response : Response) : Served := ⟨response, []⟩

def Stock.act (label : String) (r : Request) : Stock → Action
  | .pass => .pass r unchanged
  | .setLocal name value => .pass (r.setLocal name value) unchanged
  | .localFromHeader name header =>
    .pass (r.setLocal name (Json.ofOption .str (r.header? header))) unchanged
  | .after status => .pass r fun response =>
    ⟨{ response with status := status.getD response.status },
      [.mark (label ++ ":" ++ toString response.status.code)]⟩
  | .answer response => .answer response
  | .echo => .answer (.json .ok (echoed r))

def stock (label : String) (kind : Stock) : Handler where
  handle r := (kind.act label r, [.mark label])

end DocRoutes.Handler
