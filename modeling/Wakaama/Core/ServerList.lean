import Wakaama.Core.Object

/-!
# The servers of the Security object (`core/objects.c`, `core/liblwm2m.c`)

`object_getServers` adds an entry for each Security instance that has none, and
`prv_refreshServerList` drops the entries marked dirty before that.
-/

namespace Wakaama

variable {Node : Type}

/-- `LWM2M_SECURITY_OBJECT_ID` and resources of the Security object. -/
def lwm2mSecurityObjectId : UInt16 := 0

def lwm2mSecurityBootstrapId : UInt16 := 1

def lwm2mSecurityShortServerId : UInt16 := 10

def lwm2mSecurityHoldOffId : UInt16 := 11

/-- `prv_findServerInstance`: the id of the instance. A read that fails ends the search. -/
def prvFindServerInstance (ident : Node → UInt16) (object : Lwm2mObject Node) (shortID : UInt16) :
    List Node → Except Fault (Option UInt16)
  | [] => .ok none
  | node :: next =>
    match objectReadResource object (ident node) lwm2mServerShortIdId with
    | .error fault => .error fault
    | .ok none => .ok none
    | .ok (some data) =>
      if (lwm2mDataDecodeInt data).map Int64.toInt = some (shortID.toNat : Int) then
        .ok (some (ident node))
      else prvFindServerInstance ident object shortID next

/-- What the loop of `object_getServers` makes of a Security instance: a failure, no entry, or
an entry of one of the lists. -/
inductive SecurityEntry where
  | invalid
  | unmatched
  | bootstrapServer (server : Lwm2mServer)
  | regularServer (server : Lwm2mServer)

/-- A `lwm2m_server_t` of zeros but for the id. -/
def zeroServer (secObjInstID : UInt16) : Lwm2mServer where
  secObjInstID := secObjInstID
  shortID := 0
  lifetime := 0
  registration := 0
  sessionH := none
  status := .deregistered
  dirty := false
  servObjInstID := 0

/-- The entry of a bootstrap server; its lifetime is the hold-off time. -/
def bootstrapServerEntry (security : Lwm2mObject Node) (id : UInt16) :
    Except Fault SecurityEntry :=
  match objectReadResource security id lwm2mSecurityHoldOffId with
  | .error fault => .error fault
  | .ok data =>
    match data.bind lwm2mDataDecodeInt with
    | none => .ok .invalid
    | some value =>
      if value < 0 ∨ 0xFFFFFFFF < value then .ok .invalid
      else
        .ok (.bootstrapServer
          { zeroServer id with servObjInstID := lwm2mMaxId, lifetime := value.toInt })

/-- The entry of any other server. The Server object is not checked for NULL. -/
def regularServerEntry (ident : Node → UInt16) (security : Lwm2mObject Node)
    (serverObject : Option (Lwm2mObject Node)) (id : UInt16) : Except Fault SecurityEntry :=
  match objectReadResource security id lwm2mSecurityShortServerId with
  | .error fault => .error fault
  | .ok data =>
    match data.bind lwm2mDataDecodeInt with
    | none => .ok .invalid
    | some value =>
      if value < 1 ∨ 0xFFFF < value then .ok .invalid
      else
        let shortID := value.toUInt64.toUInt16
        match serverObject with
        | none => .error .nullDeref
        | some object =>
          match prvFindServerInstance ident object shortID object.instanceList with
          | .error fault => .error fault
          | .ok none => .ok .unmatched
          | .ok (some instanceId) =>
            match prvGetMandatoryInfo object instanceId
                { zeroServer id with shortID, servObjInstID := instanceId } with
            | .error fault => .error fault
            | .ok (server, found) =>
              .ok (if found then .regularServer server else .invalid)

/-- The body of the loop of `object_getServers`, for an instance without an entry. -/
def securityEntry (ident : Node → UInt16) (security : Lwm2mObject Node)
    (serverObject : Option (Lwm2mObject Node)) (id : UInt16) : Except Fault SecurityEntry :=
  match objectReadResource security id lwm2mSecurityBootstrapId with
  | .error fault => .error fault
  | .ok data =>
    match data.bind lwm2mDataDecodeBool with
    | none => .ok .invalid
    | some true => bootstrapServerEntry security id
    | some false => regularServerEntry ident security serverObject id

/-- The context with an entry added to its list. -/
def ClientContext.addEntry (context : ClientContext Node) : SecurityEntry → ClientContext Node
  | .bootstrapServer server =>
    { context with
      bootstrapServerList :=
        lwm2mListAdd Lwm2mServer.secObjInstID context.bootstrapServerList server }
  | .regularServer server =>
    { context with
      serverList := lwm2mListAdd Lwm2mServer.secObjInstID context.serverList server }
  | _ => context

/-- Whether one of the lists has an entry for the Security instance. -/
def ClientContext.hasEntry (context : ClientContext Node) (id : UInt16) : Bool :=
  (lwm2mListFind Lwm2mServer.secObjInstID id context.bootstrapServerList).isSome ||
    (lwm2mListFind Lwm2mServer.secObjInstID id context.serverList).isSome

/-- The loop of `object_getServers` over the Security instances: the context and whether the
result is 0. -/
def getServersLoop (ident : Node → UInt16) (security : Lwm2mObject Node)
    (serverObject : Option (Lwm2mObject Node)) (checkOnly : Bool) :
    List Node → ClientContext Node → Except Fault (ClientContext Node × Bool)
  | [], context => .ok (context, true)
  | node :: next, context =>
    if context.hasEntry (ident node) then
      getServersLoop ident security serverObject checkOnly next context
    else
      match securityEntry ident security serverObject (ident node) with
      | .error fault => .error fault
      | .ok .invalid => .ok (context, false)
      | .ok entry =>
        getServersLoop ident security serverObject checkOnly next
          (if checkOnly then context else context.addEntry entry)

/-- The last object of the list with the id, which is what the first loop of
`object_getServers` is left with. -/
def ClientContext.lastObject (context : ClientContext Node) (objectId : UInt16) :
    Option (Lwm2mObject Node) :=
  context.objectList.reverse.find? fun object => object.objID == objectId

/-- `object_getServers`. -/
def objectGetServers (ident : Node → UInt16) (checkOnly : Bool) (context : ClientContext Node) :
    Except Fault (ClientContext Node × Bool) :=
  match context.lastObject lwm2mSecurityObjectId with
  | none => .ok (context, false)
  | some security =>
    getServersLoop ident security (context.lastObject lwm2mServerObjectId) checkOnly
      security.instanceList context

/-- The servers that are not dirty, one by one added to an empty list. -/
def keepServers (servers : List Lwm2mServer) : List Lwm2mServer :=
  servers.foldl (fun head target =>
    if target.dirty then head else lwm2mListAdd Lwm2mServer.secObjInstID head target) []

/-- `prv_refreshServerList`: the context and whether the result is 0. -/
def prvRefreshServerList (ident : Node → UInt16) (context : ClientContext Node) :
    Except Fault (ClientContext Node × Bool) :=
  objectGetServers ident false
    { context with
      bootstrapServerList :=
        (keepServers context.bootstrapServerList).map fun target =>
          { target with status := .deregistered }
      serverList := keepServers context.serverList }

end Wakaama
