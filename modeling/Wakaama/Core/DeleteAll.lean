import Wakaama.Core.Bootstrap

/-!
# Deleting everything (`core/bootstrap.c`, `core/objects.c`)

`bootstrap_handleDeleteAll` with loops that make any number of rounds, and what each object comes
to: the calls of its `deleteFunc` one after the other, until no instance is left or one call is not
answered with 2.02.
-/

namespace Wakaama

variable {Node : Type}

/-- `object_delete`, its loop making at most so many rounds. -/
def objectDeleteWithin (rounds : Nat) (ident : Node → UInt16) (context : ClientContext Node)
    (uri : Lwm2mUri) : Except Fault (ClientContext Node × CoapCode) :=
  match context.findObject uri.objectId with
  | none => .ok (context, .notFound404)
  | some object =>
    match object.deleteFunc with
    | none => .ok (context, .methodNotAllowed405)
    | some delete =>
      if uri.isSetInstance then
        let (instanceList, result) := delete uri.instanceId object.instanceList
        .ok (context.setInstances uri.objectId instanceList, result)
      else
        (deleteInstances ident delete rounds object.instanceList).map
          fun out => (context.setInstances uri.objectId out.1, out.2)

/-- The loop over the Security instances but the server's own. -/
def deleteOthersWithin (rounds : Nat) (ident : Node → UInt16) (own : UInt16) :
    Nat → ClientContext Node → Except Fault (ClientContext Node × CoapCode)
  | 0, context =>
    match otherInstance ident own context with
    | none => .ok (context, .deleted202)
    | some _ => .error .endless
  | left + 1, context =>
    match otherInstance ident own context with
    | none => .ok (context, .deleted202)
    | some node =>
      match objectDeleteWithin rounds ident context
          ⟨lwm2mSecurityObjectId, ident node, lwm2mMaxId, lwm2mMaxId⟩ with
      | .error fault => .error fault
      | .ok (context, result) =>
        if result = .deleted202 then deleteOthersWithin rounds ident own left context
        else .ok (context, result)

/-- What the loop over the objects does with the Security object. -/
def deleteSecurityWithin (rounds : Nat) (ident : Node → UInt16) (own : UInt16) (result : CoapCode)
    (context : ClientContext Node) : Except Fault (ClientContext Node × CoapCode) :=
  if result ≠ .deleted202 then .ok (context, result)
  else
    (deleteOthersWithin rounds ident own rounds context).map fun out =>
      (if out.2 = .deleted202 then prvTagAllServer out.1 (some own) else out.1, out.2)

/-- The loop of `bootstrap_handleDeleteAll` over the objects. -/
def deleteAllWithin (rounds : Nat) (ident : Node → UInt16) (own : UInt16) :
    List UInt16 → CoapCode → ClientContext Node → Except Fault (ClientContext Node × CoapCode)
  | [], result, context => .ok (context, result)
  | objectId :: next, result, context =>
    if objectId = lwm2mSecurityObjectId then
      match deleteSecurityWithin rounds ident own result context with
      | .error fault => .error fault
      | .ok (context, result) => deleteAllWithin rounds ident own next result context
    else
      match objectDeleteWithin rounds ident context
          ⟨objectId, lwm2mMaxId, lwm2mMaxId, lwm2mMaxId⟩ with
      | .error fault => .error fault
      | .ok (context, result) =>
        deleteAllWithin rounds ident own next
          (if result = .methodNotAllowed405 then .deleted202 else result) context

/-- `bootstrap_handleDeleteAll`, each of its loops over instances making at most so many rounds. -/
def bootstrapHandleDeleteAllWithin (rounds : Nat) (ident : Node → UInt16) (now : Int)
    (server : Lwm2mServer) (context : ClientContext Node) :
    Except Fault (ClientContext Node × CoapCode) :=
  let (server, result) := prvCheckServerStatus now server
  let context :=
    { context with bootstrapServerList := replaceServer server context.bootstrapServerList }
  if result ≠ .noError then .ok (context, result)
  else
    deleteAllWithin rounds ident server.secObjInstID (context.objectList.map Lwm2mObject.objID)
      .deleted202 context

/-- The instance that is picked from the list is deleted until there is none to be picked or an
attempt is not answered with 2.02. -/
inductive DeletedUntil (pick : List Node → Option Node)
    (attempt : Node → List Node → List Node → CoapCode → Prop) :
    List Node → List Node → CoapCode → Prop where
  | done {nodes : List Node} (hnone : pick nodes = none) :
    DeletedUntil pick attempt nodes nodes .deleted202
  | next {node : Node} {nodes mid last : List Node} {code : CoapCode}
    (hpick : pick nodes = some node) (hdeleted : attempt node nodes mid .deleted202)
    (hnext : DeletedUntil pick attempt mid last code) :
    DeletedUntil pick attempt nodes last code
  | refused {node : Node} {nodes last : List Node} {code : CoapCode}
    (hpick : pick nodes = some node) (hrefused : attempt node nodes last code)
    (hcode : code ≠ .deleted202) : DeletedUntil pick attempt nodes last code

/-- All instances are deleted, the head first. -/
def InstancesDeleted (ident : Node → UInt16)
    (delete : UInt16 → List Node → List Node × CoapCode) :
    List Node → List Node → CoapCode → Prop :=
  DeletedUntil List.head? fun node nodes last code => delete (ident node) nodes = (last, code)

/-- What `object_delete` makes of the instances of an object. -/
def DeleteAnswers (ident : Node → UInt16) (object : Lwm2mObject Node) (instanceId : UInt16)
    (nodes last : List Node) (code : CoapCode) : Prop :=
  match object.deleteFunc with
  | none => last = nodes ∧ code = .methodNotAllowed405
  | some delete =>
    if instanceId = lwm2mMaxId then InstancesDeleted ident delete nodes last code
    else delete instanceId nodes = (last, code)

/-- The first instance but the server's own. -/
def pickOther (ident : Node → UInt16) (own : UInt16) (nodes : List Node) : Option Node :=
  nodes.find? fun node => ident node != own

/-- What deleting the instances of an object comes to: the instances left, and the last answer.
Of the Security object the instance of the server stays. -/
def ObjectOutcome (ident : Node → UInt16) (own : UInt16) (object : Lwm2mObject Node)
    (last : List Node) (code : CoapCode) : Prop :=
  if object.objID = lwm2mSecurityObjectId then
    DeletedUntil (pickOther ident own) (fun node => DeleteAnswers ident object (ident node))
      object.instanceList last code
  else DeleteAnswers ident object lwm2mMaxId object.instanceList last code

/-- All instances of the object have been deleted, each with a 2.02, but for the server's own
Security instance. -/
def AllDeleted (ident : Node → UInt16) (own : UInt16) (object : Lwm2mObject Node)
    (after : ClientContext Node) : Prop :=
  ∃ last, ObjectOutcome ident own object last .deleted202 ∧
    after.findObject object.objID = some { object with instanceList := last } ∧
    ∀ node ∈ last, object.objID = lwm2mSecurityObjectId ∧ ident node = own

/-- The object does not support deletion. -/
def DeletionUnsupported (ident : Node → UInt16) (own : UInt16) (object : Lwm2mObject Node) : Prop :=
  ∃ last, ObjectOutcome ident own object last .methodNotAllowed405

/-- A deletion fails, with a code other than 4.05. -/
def DeletionFails (ident : Node → UInt16) (own : UInt16) (context : ClientContext Node) : Prop :=
  ∃ object ∈ context.objectList, ∃ last code, ObjectOutcome ident own object last code ∧
    code ≠ .deleted202 ∧ code ≠ .methodNotAllowed405

/-- The last object of the list fails with an error, which for objects but the Security object
4.05 is none. -/
def LastObjectFails (ident : Node → UInt16) (own : UInt16) (context : ClientContext Node) : Prop :=
  ∃ object ∈ context.objectList.getLast?, ∃ last code, ObjectOutcome ident own object last code ∧
    code.isError = true ∧ (code = .methodNotAllowed405 → object.objID = lwm2mSecurityObjectId)

/-- The other Security instances have all been deleted. -/
def SecurityDeleted (ident : Node → UInt16) (own : UInt16) (before after : ClientContext Node) :
    Prop :=
  ∃ object ∈ before.objectList, object.objID = lwm2mSecurityObjectId ∧
    AllDeleted ident own object after

/-- The two contexts have the same servers. -/
def EqualServers (context context' : ClientContext Node) : Prop :=
  context'.bootstrapServerList = context.bootstrapServerList ∧
    context'.serverList = context.serverList

/-- The answer to DELETE on `/` and the tags are true. -/
structure DeleteAllTruthful (ident : Node → UInt16) (own : UInt16)
    (before after : ClientContext Node) (result : CoapCode) : Prop where
  deleted : result = .deleted202 → ∀ object ∈ before.objectList,
    AllDeleted ident own object after ∨ DeletionUnsupported ident own object
  failed : DeletionFails ident own before → result.isError = true
  tagged : SecurityDeleted ident own before after →
    EqualServers (prvTagAllServer before (some own)) after
  untagged : ¬ SecurityDeleted ident own before after → EqualServers before after

end Wakaama
