import RustdeskConsole.Oidc.Entities
import RustdeskConsole.ServerEvents.Fresh

namespace RustdeskConsole.ServerEvents

open Auth (truthy)
open Oidc (Json)

abbrev Record := List (String × Json)

def Record.field (record : Record) (key : String) : Option Json :=
  (record.find? (·.1 = key)).map Prod.snd

def asArray : Option Json → List Json
  | some (.array elements) => elements
  | _ => []

structure ServerManagementRuntimeConfig where
  url : Option String
  nodeId : String
  nodeName : String

/-- A relay whose `id` is a string that is not empty, with the row it came in. -/
structure RelaySummary where
  id : String
  row : Record
  named : id ≠ ""

inductive ResolvedNode
  | primary
  | relay (relayId : String)
  deriving DecidableEq

inductive RustdeskService
  | hbbs
  | hbbr
  deriving DecidableEq

/-- An undefined value of `runtime` is `none`. -/
structure ServiceEntry where
  service : RustdeskService
  state : String
  running : Bool
  startedAt : Option String
  runtime : List (String × Option Json)
  available : Bool

structure NodeEntry where
  id : String
  name : String
  relay : Bool
  reachable : Bool
  apiVersion : Option ℕ
  nodeId : Option String
  services : List ServiceEntry

/-- The node that an entry is listed for. That of a relay carries its name. -/
def NodeEntry.node (entry : NodeEntry) : ResolvedNode :=
  if entry.relay then .relay entry.name else .primary

def State.hasRelay (s : State) (relayId : String) : Bool := (s.view.relays.get? relayId).isSome

def relayNodePrefix : String := "relay:"

/-- What the management API replies to a request for a path, if it does, and
when a service with a given uptime was started. -/
structure Management where
  reply : String → Option Record
  startedAt : Option Json → Option String

section Service

variable (management : Management) (config : ServerManagementRuntimeConfig)

def fetchJson (path : String) : Option Record :=
  match truthy config.url with
  | none => none
  | some _ => management.reply path

def RelaySummary.of : Json → Option RelaySummary
  | .object row =>
    match Record.field row "id" with
    | some (.string id) => if h : id = "" then none else some ⟨id, row, h⟩
    | _ => none
  | _ => none

def relaySummaries : Option (List RelaySummary) :=
  (fetchJson management config "/v1/relays").map fun result ↦
    (asArray (result.field "data")).filterMap RelaySummary.of

def relayRuntime (relay : RelaySummary) : List (String × Option Json) :=
  [("version", relay.row.field "version"),
    ("uptime_seconds", relay.row.field "uptime_seconds"),
    ("address", some ((relay.row.field "address").getD .null)),
    ("sessions_count", relay.row.field "sessions_count"),
    ("last_heartbeat_age_seconds", relay.row.field "last_heartbeat_age_seconds")]

def serviceEntry (service : RustdeskService) (runtime : List (String × Option Json)) :
    ServiceEntry :=
  let uptime := (runtime.find? (·.1 = "uptime_seconds")).bind Prod.snd
  ⟨service, "running", true, management.startedAt uptime, runtime, true⟩

/-- The id that a relay is listed under. That of the primary node is taken. -/
def exposed (relayId : String) : String :=
  if relayId = config.nodeId then relayNodePrefix ++ relayId else relayId

def relayEntry (relay : RelaySummary) : NodeEntry :=
  let nodeId := exposed config relay.id
  ⟨nodeId, relay.id, true, true, some 1, some nodeId,
    [serviceEntry management .hbbr (relayRuntime relay)]⟩

def list : List NodeEntry :=
  match truthy config.url with
  | none => []
  | some _ =>
    match fetchJson management config "/v1/status" with
    | none => [⟨config.nodeId, config.nodeName, false, false, none, none, []⟩]
    | some status =>
      ⟨config.nodeId, config.nodeName, false, true, some 1, some config.nodeId,
          [serviceEntry management .hbbs (status.map fun field ↦ (field.1, some field.2))]⟩ ::
        ((relaySummaries management config).getD []).map (relayEntry management config)

/-- Both the id that is exposed and that of the relay. -/
def candidates (nodeId : String) : List String :=
  if relayNodePrefix.toList.isPrefixOf nodeId.toList then
    [nodeId, String.ofList (nodeId.toList.drop relayNodePrefix.toList.length)]
  else [nodeId]

def resolveNode (events : State) (nodeId : String) : Option ResolvedNode :=
  match truthy config.url with
  | none => none
  | some _ =>
    if nodeId = config.nodeId then some .primary
    else
      match (candidates nodeId).find? fun relayId ↦
          relayId ≠ "" && events.isFresh && events.hasRelay relayId with
      | some relayId => some (.relay relayId)
      | none =>
        let relays := (relaySummaries management config).getD []
        ((candidates nodeId).find? fun relayId ↦
          relayId ≠ "" && relays.any (·.id = relayId)).map .relay

end Service

section Registry

variable (management : Management) (config : ServerManagementRuntimeConfig)

/-- The live view, while it is served, has the relays that the server reports. -/
def Follows (events : State) : Prop :=
  events.isFresh = true → ∀ relays, relaySummaries management config = some relays →
    ∀ relayId, events.hasRelay relayId = true ↔ relayId ∈ relays.map (·.id)

/-- The listed ids are distinct, and each resolves to the node it stands for. -/
def RoundTrip (events : State) : Prop :=
  ((list management config).map (·.id)).Nodup ∧
    ∀ entry ∈ list management config,
      resolveNode management config events entry.id = some entry.node

/-- No two relays have one id, and if one has that of the primary node then none
has it with the prefix. -/
def Separable : Prop :=
  truthy config.url ≠ none → fetchJson management config "/v1/status" ≠ none →
    ∀ relays, relaySummaries management config = some relays →
      (relays.map (·.id)).Nodup ∧
        (config.nodeId ∈ relays.map (·.id) →
          relayNodePrefix ++ config.nodeId ∉ relays.map (·.id))

variable {management config} {events : State} {relays : List RelaySummary}
  {relayId nodeId url : String}

/-- A view that shows the server as it is has the relays of its reply. -/
theorem ShowsAt.follows (h : ShowsAt events events.events.length)
    (hr : ∀ relays, relaySummaries management config = some relays → ∀ relayId,
      relayId ∈ relays.map (·.id) ↔ (events.upstream.relays relayId).isSome = true) :
    Follows management config events := by
  intro _ relays hrelays relayId
  rw [hr relays hrelays, State.hasRelay, h.1]
  exact Iff.rfl

theorem prefix_append_ne : relayNodePrefix ++ relayId ≠ relayId := by
  intro h
  have hlength := congrArg String.length h
  simp [relayNodePrefix] at hlength

theorem exposed_ne : exposed config relayId ≠ config.nodeId := by
  rw [exposed]
  by_cases h : relayId = config.nodeId
  · rw [if_pos h, h]
    exact prefix_append_ne
  · rwa [if_neg h]

theorem mem_candidates_head : ∃ rest, candidates nodeId = nodeId :: rest := by
  rw [candidates]
  split
  · exact ⟨_, rfl⟩
  · exact ⟨_, rfl⟩

theorem candidates_prefix : candidates (relayNodePrefix ++ relayId) =
    [relayNodePrefix ++ relayId, relayId] := by
  have hpre : relayNodePrefix.toList.isPrefixOf (relayNodePrefix ++ relayId).toList = true := by
    rw [List.isPrefixOf_iff_prefix, String.toList_append]
    exact List.prefix_append ..
  rw [candidates, if_pos hpre, String.toList_append, List.drop_left, String.ofList_toList]

/-- Either source finds the first candidate that is a relay. -/
theorem resolveNode_eq (hf : Follows management config events)
    (hr : relaySummaries management config = some relays) (hu : truthy config.url = some url)
    (hn : nodeId ≠ config.nodeId) : resolveNode management config events nodeId =
      ((candidates nodeId).find? (· ∈ relays.map (·.id))).map .relay := by
  have hnamed : "" ∉ relays.map (·.id) := by
    intro hm
    obtain ⟨relay, -, hid⟩ := List.mem_map.mp hm
    exact relay.named hid
  have hqueried : (fun relayId : String ↦
      decide (relayId ≠ "") && relays.any fun relay ↦ decide (relay.id = relayId)) =
        fun relayId ↦ decide (relayId ∈ relays.map (·.id)) := by
    funext relayId
    by_cases hm : relayId ∈ relays.map (·.id)
    · have hne : relayId ≠ "" := fun heq ↦ hnamed (heq ▸ hm)
      obtain ⟨relay, hrelay, hid⟩ := List.mem_map.mp hm
      rw [decide_eq_true hm, decide_eq_true hne, Bool.true_and, List.any_eq_true]
      exact ⟨relay, hrelay, decide_eq_true hid⟩
    · rw [decide_eq_false hm, Bool.and_eq_false_iff, List.any_eq_false]
      refine .inr fun relay hrelay hid ↦ hm (List.mem_map.mpr ⟨relay, hrelay, ?_⟩)
      exact of_decide_eq_true hid
  rw [resolveNode, hu, hr]
  simp only [if_neg hn, Option.getD_some, hqueried]
  cases hfresh : events.isFresh with
  | false =>
    have hnone : (candidates nodeId).find? (fun relayId ↦
        decide (relayId ≠ "") && false && events.hasRelay relayId) = none :=
      List.find?_eq_none.mpr fun relayId _ ↦ by simp
    rw [hnone]
  | true =>
    have hlive : (fun relayId : String ↦
        decide (relayId ≠ "") && true && events.hasRelay relayId) =
          fun relayId ↦ decide (relayId ∈ relays.map (·.id)) := by
      funext relayId
      by_cases hm : relayId ∈ relays.map (·.id)
      · have hne : relayId ≠ "" := fun heq ↦ hnamed (heq ▸ hm)
        rw [decide_eq_true hm, decide_eq_true hne, (hf hfresh relays hr relayId).mpr hm]
        rfl
      · have hno : events.hasRelay relayId = false :=
          Bool.eq_false_iff.mpr fun hyes ↦ hm ((hf hfresh relays hr relayId).mp hyes)
        rw [decide_eq_false hm, hno, Bool.and_false]
    rw [hlive]
    cases (candidates nodeId).find? fun relayId ↦ decide (relayId ∈ relays.map (·.id)) with
    | none => rfl
    | some relayId => rfl

/-- A relay that is exposed under its own id is found by it. -/
theorem resolveNode_exposed (hf : Follows management config events)
    (hr : relaySummaries management config = some relays) (hu : truthy config.url = some url)
    (hs : config.nodeId ∈ relays.map (·.id) →
      relayNodePrefix ++ config.nodeId ∉ relays.map (·.id))
    (hm : relayId ∈ relays.map (·.id)) :
    resolveNode management config events (exposed config relayId) = some (.relay relayId) := by
  rw [resolveNode_eq hf hr hu exposed_ne, exposed]
  by_cases h : relayId = config.nodeId
  · rw [if_pos h, candidates_prefix, List.find?_cons_of_neg, List.find?_cons_of_pos]
    · rfl
    · exact decide_eq_true hm
    · rw [decide_eq_true_eq, h]
      exact hs (h ▸ hm)
  · obtain ⟨rest, hrest⟩ : ∃ rest, candidates relayId = relayId :: rest := mem_candidates_head
    rw [if_neg h, hrest, List.find?_cons_of_pos]
    · rfl
    · exact decide_eq_true hm

/-- The exposed ids are distinct just when the ids are and the prefix is free. -/
theorem nodup_exposed {ids : List String} : (ids.map (exposed config)).Nodup ↔
    ids.Nodup ∧ (config.nodeId ∈ ids → relayNodePrefix ++ config.nodeId ∉ ids) := by
  constructor
  · intro h
    refine ⟨h.of_map _, fun hm hp ↦ ?_⟩
    have heq : exposed config config.nodeId = exposed config (relayNodePrefix ++ config.nodeId) := by
      rw [exposed, exposed, if_pos rfl, if_neg prefix_append_ne]
    exact prefix_append_ne (List.inj_on_of_nodup_map h hm hp heq).symm
  · rintro ⟨hd, hp⟩
    refine hd.map_on fun x hx y hy heq ↦ ?_
    simp only [exposed] at heq
    split_ifs at heq with hxn hyn hyn
    · rw [hxn, hyn]
    · rw [hxn] at hx heq
      exact absurd (heq ▸ hy) (hp hx)
    · rw [hyn] at hy heq
      exact absurd (heq ▸ hx) (hp hy)
    · exact heq

/-- The ids that are listed lead back to their nodes just when the relays can be
told apart. -/
theorem round_trip_iff (management : Management) (config : ServerManagementRuntimeConfig)
    (events : State) (hf : Follows management config events) :
    RoundTrip management config events ↔ Separable management config := by
  cases hu : truthy config.url with
  | none =>
    have hlist : list management config = [] := by rw [list, hu]
    refine iff_of_true ⟨by rw [hlist]; exact .nil, fun entry hm ↦ ?_⟩ fun hne ↦ absurd hu hne
    rw [hlist] at hm
    cases hm
  | some url =>
    have hprimary : resolveNode management config events config.nodeId = some .primary := by
      rw [resolveNode, hu]
      exact if_pos rfl
    cases hstatus : fetchJson management config "/v1/status" with
    | none =>
      refine iff_of_true ?_ fun _ hne ↦ absurd hstatus hne
      rw [RoundTrip, list, hu]
      simp [hstatus, hprimary, NodeEntry.node]
    | some status =>
      have hids : ((list management config).map (·.id)) = config.nodeId ::
          (((relaySummaries management config).getD []).map (·.id)).map (exposed config) := by
        rw [list, hu]
        simp [hstatus, relayEntry]
      have hnot : ∀ ids : List String, config.nodeId ∉ ids.map (exposed config) := by
        intro ids hm
        obtain ⟨relayId, -, heq⟩ := List.mem_map.mp hm
        exact exposed_ne heq
      have hseparable : Separable management config ↔
          ∀ relays, relaySummaries management config = some relays →
            ((relays.map (·.id)).map (exposed config)).Nodup := by
        rw [Separable, hu, hstatus]
        refine ⟨fun h relays hr ↦ nodup_exposed.mpr (h ?_ ?_ relays hr),
          fun h _ _ relays hr ↦ nodup_exposed.mp (h relays hr)⟩
        · exact Option.some_ne_none _
        · exact Option.some_ne_none _
      rw [hseparable, RoundTrip, hids, List.nodup_cons, and_iff_right (hnot _)]
      constructor
      · rintro ⟨hd, -⟩ relays hr
        rwa [hr] at hd
      · intro hd
        cases hr : relaySummaries management config with
        | none =>
          refine ⟨.nil, fun entry hm ↦ ?_⟩
          rw [list, hu] at hm
          simp only [hstatus, hr, Option.getD_none, List.map_nil, List.mem_singleton] at hm
          rw [hm]
          exact hprimary
        | some relays =>
          refine ⟨hd relays hr, fun entry hm ↦ ?_⟩
          rw [list, hu] at hm
          simp only [hstatus, hr, Option.getD_some, List.mem_cons, List.mem_map] at hm
          obtain rfl | ⟨relay, hrelay, rfl⟩ := hm
          · exact hprimary
          · exact resolveNode_exposed hf hr hu (nodup_exposed.mp (hd relays hr)).2
              (List.mem_map_of_mem hrelay)

end Registry

section Sample

def sampleRow (id : String) : Json := .object [("id", .string id)]

def sampleManagement (ids : List String) : Management :=
  ⟨fun _ ↦ some [("data", .array (ids.map sampleRow))], fun _ ↦ none⟩

def sampleConfig : ServerManagementRuntimeConfig := ⟨some "http://hbbs", "main", "Main"⟩

theorem sample_follows (ids : List String) :
    Follows (sampleManagement ids) sampleConfig sampleStart := by
  intro hfresh
  cases hfresh

/-- The relay with the id of the primary node is listed with the prefix. -/
theorem sample_round_trip :
    Follows (sampleManagement ["main", "eu"]) sampleConfig sampleStart ∧
      (RoundTrip (sampleManagement ["main", "eu"]) sampleConfig sampleStart ↔
        Separable (sampleManagement ["main", "eu"]) sampleConfig) :=
  ⟨sample_follows _, round_trip_iff _ _ _ (sample_follows _)⟩

/-- A relay can have the id that another is exposed under. -/
theorem prefix_taken : ¬ ∀ (management : Management) (config : ServerManagementRuntimeConfig)
    (events : State), Follows management config events → RoundTrip management config events := by
  intro hall
  have hnodup := (hall (sampleManagement ["main", "relay:main"]) sampleConfig sampleStart
    (sample_follows _)).1
  revert hnodup
  decide +kernel

end Sample

end RustdeskConsole.ServerEvents
