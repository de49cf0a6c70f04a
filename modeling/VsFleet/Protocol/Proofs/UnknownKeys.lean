import VsFleet.Protocol.Proofs.RoundTrip

/-!
# Unknown keys survive the wire

An object of the protocol that is read and written again keeps every key that is none of its
fields, and so do the objects inside it and the ones an event carries, wherever the numbers of its
value are read back exactly. The envelopes themselves have no map for such keys: what is beside the
fields of an event is dropped.
-/

namespace VsFleet

open Serde

variable {float : String → Option String}

/-! ## Objects -/

/-- The keys a session keeps: its own that are no field, and those of the objects inside it. -/
inductive Session.Kept : List Json.Step → Prop
  | own {path : List Json.Step} (h : Unknown Session.declared path) : Kept path
  | location {path : List Json.Step} (h : Unknown Location.declared path) :
    Kept (.key "location" :: path)
  | editor {path : List Json.Step} (h : Unknown Editor.declared path) :
    Kept (.key "editor" :: path)
  | server {path : List Json.Step} (h : Unknown Server.declared path) :
    Kept (.key "server" :: path)
  | run {path : List Json.Step} (i : Nat) (h : Unknown AgentRun.declared path) :
    Kept (.key "runs" :: .index i :: path)

theorem Location.keeps :
    Keeps float Location.serialize (Location.deserialize float) (Unknown Location.declared) := by
  intro j l found path unknown numbers
  obtain ⟨entries, object, found⟩ := Option.bind_eq_some_iff.mp found
  obtain ⟨kind, -, found⟩ := Option.bind_eq_some_iff.mp found
  obtain ⟨label, -, found⟩ := Option.bind_eq_some_iff.mp found
  obtain ⟨glyph, -, found⟩ := Option.bind_eq_some_iff.mp found
  obtain ⟨hint, -, found⟩ := Option.bind_eq_some_iff.mp found
  obtain ⟨extra, inExtra, found⟩ := Option.bind_eq_some_iff.mp found
  cases found
  obtain rfl := readMap_eq_some object
  exact (Location.layout (flattened_apart inExtra)).keeps_unknown inExtra unknown numbers

theorem Editor.keeps :
    Keeps float Editor.serialize (Editor.deserialize float) (Unknown Editor.declared) := by
  intro j e found path unknown numbers
  obtain ⟨entries, object, found⟩ := Option.bind_eq_some_iff.mp found
  obtain ⟨kind, -, found⟩ := Option.bind_eq_some_iff.mp found
  obtain ⟨hint, -, found⟩ := Option.bind_eq_some_iff.mp found
  obtain ⟨extra, inExtra, found⟩ := Option.bind_eq_some_iff.mp found
  cases found
  obtain rfl := readMap_eq_some object
  exact (Editor.layout (flattened_apart inExtra)).keeps_unknown inExtra unknown numbers

theorem Server.keeps :
    Keeps float Server.serialize (Server.deserialize float) (Unknown Server.declared) := by
  intro j s found path unknown numbers
  obtain ⟨entries, object, found⟩ := Option.bind_eq_some_iff.mp found
  obtain ⟨kind, -, found⟩ := Option.bind_eq_some_iff.mp found
  obtain ⟨version, -, found⟩ := Option.bind_eq_some_iff.mp found
  obtain ⟨extra, inExtra, found⟩ := Option.bind_eq_some_iff.mp found
  cases found
  obtain rfl := readMap_eq_some object
  exact (Server.layout (flattened_apart inExtra)).keeps_unknown inExtra unknown numbers

theorem AgentRun.keeps :
    Keeps float AgentRun.serialize (AgentRun.deserialize float) (Unknown AgentRun.declared) := by
  intro j r found path unknown numbers
  obtain ⟨entries, object, found⟩ := Option.bind_eq_some_iff.mp found
  obtain ⟨version, -, found⟩ := Option.bind_eq_some_iff.mp found
  obtain ⟨id, -, found⟩ := Option.bind_eq_some_iff.mp found
  obtain ⟨kind, -, found⟩ := Option.bind_eq_some_iff.mp found
  obtain ⟨native, -, found⟩ := Option.bind_eq_some_iff.mp found
  obtain ⟨cwd, -, found⟩ := Option.bind_eq_some_iff.mp found
  obtain ⟨state, -, found⟩ := Option.bind_eq_some_iff.mp found
  obtain ⟨urgency, -, found⟩ := Option.bind_eq_some_iff.mp found
  obtain ⟨message, -, found⟩ := Option.bind_eq_some_iff.mp found
  obtain ⟨since, -, found⟩ := Option.bind_eq_some_iff.mp found
  obtain ⟨confidence, -, found⟩ := Option.bind_eq_some_iff.mp found
  obtain ⟨diff, -, found⟩ := Option.bind_eq_some_iff.mp found
  obtain ⟨updated, -, found⟩ := Option.bind_eq_some_iff.mp found
  obtain ⟨extra, inExtra, found⟩ := Option.bind_eq_some_iff.mp found
  cases found
  obtain rfl := readMap_eq_some object
  exact (AgentRun.layout (flattened_apart inExtra)).keeps_unknown inExtra unknown numbers

theorem Session.keeps : Keeps float Session.serialize (Session.deserialize float) Session.Kept := by
  intro j s found path kept numbers
  obtain ⟨entries, object, found⟩ := Option.bind_eq_some_iff.mp found
  obtain ⟨version, -, found⟩ := Option.bind_eq_some_iff.mp found
  obtain ⟨id, -, found⟩ := Option.bind_eq_some_iff.mp found
  obtain ⟨title, -, found⟩ := Option.bind_eq_some_iff.mp found
  obtain ⟨location, inLocation, found⟩ := Option.bind_eq_some_iff.mp found
  obtain ⟨editor, inEditor, found⟩ := Option.bind_eq_some_iff.mp found
  obtain ⟨server, inServer, found⟩ := Option.bind_eq_some_iff.mp found
  obtain ⟨runs, inRuns, found⟩ := Option.bind_eq_some_iff.mp found
  obtain ⟨state, -, found⟩ := Option.bind_eq_some_iff.mp found
  obtain ⟨urgency, -, found⟩ := Option.bind_eq_some_iff.mp found
  obtain ⟨muted, -, found⟩ := Option.bind_eq_some_iff.mp found
  obtain ⟨soloed, -, found⟩ := Option.bind_eq_some_iff.mp found
  obtain ⟨unread, -, found⟩ := Option.bind_eq_some_iff.mp found
  obtain ⟨tags, -, found⟩ := Option.bind_eq_some_iff.mp found
  obtain ⟨policy, -, found⟩ := Option.bind_eq_some_iff.mp found
  obtain ⟨updated, -, found⟩ := Option.bind_eq_some_iff.mp found
  obtain ⟨extra, inExtra, found⟩ := Option.bind_eq_some_iff.mp found
  cases found
  obtain rfl := readMap_eq_some object
  have layout := Session.layout (s := ⟨version, id, title, location, editor, server, runs, state,
    urgency, muted, soloed, unread, tags, policy, updated, extra⟩)
    (flattened_apart inExtra)
  cases kept with
  | own unknown => exact layout.keeps_unknown inExtra unknown numbers
  | location unknown =>
    exact layout.keeps_required "location" rfl inLocation Location.keeps unknown numbers
  | editor unknown => exact layout.keeps_optional "editor" rfl inEditor Editor.keeps unknown numbers
  | server unknown => exact layout.keeps_required "server" rfl inServer Server.keeps unknown numbers
  | run i unknown =>
    exact layout.keeps_required "runs" rfl inRuns AgentRun.keeps.list ⟨i, _, rfl, unknown⟩
      numbers

/-! ## Events -/

/-- The keys an event keeps: those of the objects it carries. -/
inductive Event.Kept : Event → List Json.Step → Prop
  | snapshot {v : Nat} {sessions : List Session} {path : List Json.Step} (i : Nat)
    (h : Session.Kept path) : Kept (.snapshot v sessions) (.key "sessions" :: .index i :: path)
  | sessionAdded {v : Nat} {s : Session} {path : List Json.Step} (h : Session.Kept path) :
    Kept (.sessionAdded v s) (.key "session" :: path)
  | sessionUpdated {v : Nat} {s : Session} {path : List Json.Step} (h : Session.Kept path) :
    Kept (.sessionUpdated v s) (.key "session" :: path)
  | runAdded {v : Nat} {id : String} {r : AgentRun} {path : List Json.Step}
    (h : Unknown AgentRun.declared path) : Kept (.runAdded v id r) (.key "run" :: path)
  | runUpdated {v : Nat} {id : String} {r : AgentRun} {path : List Json.Step}
    (h : Unknown AgentRun.declared path) : Kept (.runUpdated v id r) (.key "run" :: path)

theorem readSessionEvent_eq_some {event : Nat → Session → Event} {content : List (String × Json)}
    {e : Event} (h : readSessionEvent float event content = some e) :
    ∃ v s, e = event v s ∧ required (Session.deserialize float) content "session" = some s := by
  simp only [readSessionEvent, Option.bind_eq_bind, Option.bind_eq_some_iff] at h
  obtain ⟨entries, same, v, -, s, slot, done⟩ := h
  obtain rfl := unique_eq_some same
  exact ⟨v, s, (Option.some.inj done).symm, slot⟩

theorem readRunEvent_eq_some {event : Nat → String → AgentRun → Event}
    {content : List (String × Json)} {e : Event} (h : readRunEvent float event content = some e) :
    ∃ v id r, e = event v id r ∧ required (AgentRun.deserialize float) content "run" = some r := by
  simp only [readRunEvent, Option.bind_eq_bind, Option.bind_eq_some_iff] at h
  obtain ⟨entries, same, v, -, id, -, r, slot, done⟩ := h
  obtain rfl := unique_eq_some same
  exact ⟨v, id, r, (Option.some.inj done).symm, slot⟩

section

variable {variant : String} {v : Nat} {s : Session} {id : String} {r : AgentRun}

theorem sessionEvent_layout : Layout ["type", "schema_version", "session"]
    (("type", some (.string variant)) ::
      [("schema_version", some (writeNat v)), ("session", some s.serialize)]) [] :=
  ⟨rfl, by decide, by simp⟩

theorem runEvent_layout : Layout ["type", "schema_version", "session_id", "run"]
    (("type", some (.string variant)) ::
      [("schema_version", some (writeNat v)), ("session_id", some (.string id)),
        ("run", some r.serialize)]) [] :=
  ⟨rfl, by decide, by simp⟩

end

theorem Event.keeps {j : Json} {e : Event} (found : Event.deserialize float j = some e)
    {path : List Json.Step} (kept : e.Kept path) (numbers : j.ExactAt float path) :
    e.serialize.valueAt path = j.valueAt path := by
  obtain ⟨⟨name, content⟩, tagged, found⟩ := Option.bind_eq_some_iff.mp found
  simp only at found
  split at found
  case h_1 =>
    simp only [Option.bind_eq_bind, Option.bind_eq_some_iff, Option.pure_def, Option.some.injEq]
      at found
    obtain ⟨entries, same, v, -, sessions, slot, rfl⟩ := found
    obtain rfl := unique_eq_some same
    cases kept with
    | snapshot i h =>
      have layout : Layout ["type", "schema_version", "sessions"]
        (("type", some (.string "fleet.snapshot")) :: Event.fields (.snapshot v sessions)) [] :=
        ⟨rfl, by decide, by simp⟩
      exact layout.keeps_tagged "sessions" tagged (by decide) rfl slot Session.keeps.list
        ⟨i, _, rfl, h⟩ numbers
  case h_2 =>
    obtain ⟨v, s, rfl, slot⟩ := readSessionEvent_eq_some found
    cases kept with
    | sessionAdded h =>
      exact sessionEvent_layout.keeps_tagged "session" tagged (by decide) rfl slot Session.keeps h
        numbers
  case h_3 =>
    obtain ⟨v, s, rfl, slot⟩ := readSessionEvent_eq_some found
    cases kept with
    | sessionUpdated h =>
      exact sessionEvent_layout.keeps_tagged "session" tagged (by decide) rfl slot Session.keeps h
        numbers
  case h_4 =>
    simp only [Option.bind_eq_bind, Option.bind_eq_some_iff, Option.pure_def, Option.some.injEq]
      at found
    obtain ⟨entries, same, v, -, id, -, rfl⟩ := found
    cases kept
  case h_5 =>
    obtain ⟨v, id, r, rfl, slot⟩ := readRunEvent_eq_some found
    cases kept with
    | runAdded h =>
      exact runEvent_layout.keeps_tagged "run" tagged (by decide) rfl slot AgentRun.keeps h
        numbers
  case h_6 =>
    obtain ⟨v, id, r, rfl, slot⟩ := readRunEvent_eq_some found
    cases kept with
    | runUpdated h =>
      exact runEvent_layout.keeps_tagged "run" tagged (by decide) rfl slot AgentRun.keeps h
        numbers
  case h_7 =>
    simp only [Option.bind_eq_bind, Option.bind_eq_some_iff, Option.pure_def, Option.some.injEq]
      at found
    obtain ⟨entries, same, v, -, id, -, runId, -, rfl⟩ := found
    cases kept
  case h_8 => exact absurd found (by simp)

end VsFleet
