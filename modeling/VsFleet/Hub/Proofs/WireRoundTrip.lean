import VsFleet.Hub.Codec
import VsFleet.Protocol.Proofs.UnknownKeys

/-!
# The wire and the log give back what was put in

The messages of a client and the rows of the log carry the objects of the protocol inside their own
tagged envelopes, so they are read back as they were written, and the unknown keys of the objects
they carry are kept. An unknown key of an envelope is accepted and dropped: a face tolerates it. A
number is kept where serde_json reads it back exactly, and a text is read at all where it is not
nested too deep.
-/

namespace VsFleet

open Serde

variable {float : String → Option String}

/-! ## Messages of a client -/

/-- A stamp as its types have it. -/
structure SeqStamp.Proper (s : SeqStamp) : Prop where
  epoch : s.epoch < u64Bound
  seq : s.seq < u64Bound

/-- A message as its types have it, with the conditions on the objects it carries. -/
def ClientMessage.Proper (float : String → Option String) : ClientMessage → Prop
  | .subscribe | .sessionRemove _ | .runRemove _ _ => True
  | .command c => c.Proper
  | .sessionUpsert session => session.Proper float
  | .runUpsert _ run stamp => run.Proper float ∧ ∀ s, stamp = some s → s.Proper

theorem SeqStamp.deserialize_serialize {s : SeqStamp} (h : s.Proper) :
    deserialize s.serialize = some s := by
  have layout : Layout SeqStamp.declared s.fields [] := ⟨rfl, by decide, by simp⟩
  have object : (s.serialize.structFields SeqStamp.declared).bind (unique SeqStamp.declared) =
      some (present s.fields ++ []) := layout.unique_eq
  unfold SeqStamp.deserialize
  refine bind_eq_some object ?_
  refine bind_eq_some (layout.required_eq "durable_id" rfl (readString_string s.durableId)) ?_
  refine bind_eq_some (layout.defaulted_eq "epoch" rfl (readNat_writeNat h.epoch)) ?_
  refine bind_eq_some (layout.required_eq "seq" rfl (readNat_writeNat h.seq)) ?_
  rfl

theorem SeqStamp.serialize_ne_null (s : SeqStamp) : s.serialize ≠ .null := by
  simp [SeqStamp.serialize, writeStruct]

theorem SeqStamp.Proper.exact_serialize {s : SeqStamp} (h : s.Proper) :
    s.serialize.Exact float := by
  refine exact_writeStruct ?_ (by simp)
  change ExactFields float s.fields
  simp [SeqStamp.fields, exact_writeNat h.epoch, exact_writeNat h.seq]

theorem ClientMessage.exact_fields {m : ClientMessage} (h : m.Proper float) :
    ExactFields float m.fields := by
  cases m with
  | subscribe => simp [ClientMessage.fields]
  | command c => simp [ClientMessage.fields, Command.tagged, Command.exact_fields h]
  | sessionUpsert session =>
    have session := Session.Proper.exact_serialize h
    simp [ClientMessage.fields, session]
  | sessionRemove id => simp [ClientMessage.fields]
  | runUpsert id run stamp =>
    have stamp : ∀ s, stamp = some s → s.serialize.Exact float :=
      fun s found => (h.2 s found).exact_serialize
    simpa [ClientMessage.fields, h.1.exact_serialize] using stamp
  | runRemove id runId => simp [ClientMessage.fields]

theorem ClientMessage.deserialize_serialize {m : ClientMessage} (h : m.Proper float) :
    deserialize float m.serialize = some m := by
  unfold ClientMessage.deserialize ClientMessage.serialize
  have untyped : "type" ∉ m.fields.map Prod.fst := by
    cases m with
    | command c => cases c <;> simp [ClientMessage.fields, Command.tagged, Command.fields]
    | _ => simp [ClientMessage.fields]
  refine bind_eq_some (readTagged_writeTagged untyped (exact_fields h)) ?_
  cases m with
  | subscribe => rfl
  | command c =>
    -- the flattened command is the object it is written as alone
    have alone : Command.deserialize float (.object (present c.tagged ++ [])) = some c :=
      Command.deserialize_serialize h
    exact bind_eq_some alone rfl
  | sessionUpsert session =>
    exact readOne_eq "session" ClientMessage.sessionUpsert (Session.deserialize_serialize h)
  | sessionRemove id =>
    exact readOne_eq "session_id" ClientMessage.sessionRemove (readString_string id)
  | runUpsert id run stamp =>
    have layout : Layout ["session_id", "run", "stamp"]
      (ClientMessage.fields (.runUpsert id run stamp)) [] := ⟨rfl, by decide, by simp⟩
    refine bind_eq_some layout.unique_eq ?_
    refine bind_eq_some (layout.required_eq "session_id" rfl (readString_string id)) ?_
    refine bind_eq_some (layout.required_eq "run" rfl (AgentRun.deserialize_serialize h.1)) ?_
    refine bind_eq_some (layout.optional_eq "stamp" rfl
      (.map (fun s hs => SeqStamp.deserialize_serialize (h.2 s hs)) SeqStamp.serialize_ne_null)) ?_
    rfl
  | runRemove id runId =>
    exact readTwo_eq "session_id" "run_id" (by simp) ClientMessage.runRemove (readString_string id)
      (readString_string runId)

/-- The keys a message keeps: those of the object it carries. -/
inductive ClientMessage.Kept : ClientMessage → List Json.Step → Prop
  | sessionUpsert {s : Session} {path : List Json.Step} (h : Session.Kept path) :
    Kept (.sessionUpsert s) (.key "session" :: path)
  | runUpsert {id : String} {r : AgentRun} {stamp : Option SeqStamp} {path : List Json.Step}
    (h : Unknown AgentRun.declared path) : Kept (.runUpsert id r stamp) (.key "run" :: path)

theorem ClientMessage.keeps {j : Json} {m : ClientMessage}
    (found : ClientMessage.deserialize float j = some m) {path : List Json.Step}
    (kept : m.Kept path) (numbers : j.ExactAt float path) :
    m.serialize.valueAt path = j.valueAt path := by
  obtain ⟨⟨name, content⟩, tagged, found⟩ := Option.bind_eq_some_iff.mp found
  simp only at found
  split at found
  case h_3 =>
    simp only [Option.bind_eq_bind, Option.bind_eq_some_iff, Option.pure_def, Option.some.injEq]
      at found
    obtain ⟨entries, same, s, slot, rfl⟩ := found
    obtain rfl := unique_eq_some same
    cases kept with
    | sessionUpsert h =>
      have layout : Layout ["type", "session"]
        (("type", some (.string "session.upsert")) :: ClientMessage.fields (.sessionUpsert s)) [] :=
        ⟨rfl, by decide, by simp⟩
      exact layout.keeps_tagged "session" tagged (by decide) rfl slot Session.keeps h
        numbers
  case h_5 =>
    simp only [Option.bind_eq_bind, Option.bind_eq_some_iff, Option.pure_def, Option.some.injEq]
      at found
    obtain ⟨entries, same, id, -, r, slot, stamp, -, rfl⟩ := found
    obtain rfl := unique_eq_some same
    cases kept with
    | runUpsert h =>
      have layout : Layout ["type", "session_id", "run", "stamp"]
        (("type", some (.string "run.upsert")) :: ClientMessage.fields (.runUpsert id r stamp))
        [] := ⟨rfl, by decide, by simp⟩
      exact layout.keeps_tagged "run" tagged (by decide) rfl slot AgentRun.keeps h
        numbers
  all_goals
    -- the other messages carry no object
    cases kept <;> simp [Option.bind_eq_some_iff] at found

/-! ## Rows of the log -/

/-- A row of the log as its types have it, with the conditions on the objects it carries. -/
def PersistEvent.Proper (float : String → Option String) : PersistEvent → Prop
  | .sessionUpsert session => session.Proper float
  | .sessionRemove _ | .runRemove _ _ => True
  | .runUpsert _ run => run.Proper float

theorem PersistEvent.exact_fields {e : PersistEvent} (h : e.Proper float) :
    ExactFields float e.fields := by
  cases e with
  | sessionUpsert session =>
    have session := Session.Proper.exact_serialize h
    simp [PersistEvent.fields, session]
  | runUpsert id run =>
    have run := AgentRun.Proper.exact_serialize h
    simp [PersistEvent.fields, run]
  | sessionRemove id | runRemove id runId => simp [PersistEvent.fields]

theorem PersistEvent.deserialize_serialize {e : PersistEvent} (h : e.Proper float) :
    deserialize float e.serialize = some e := by
  unfold PersistEvent.deserialize PersistEvent.serialize
  refine bind_eq_some (readTagged_writeTagged (by cases e <;> simp [PersistEvent.fields])
    (exact_fields h)) ?_
  cases e with
  | sessionUpsert session =>
    exact readOne_eq "session" PersistEvent.sessionUpsert (Session.deserialize_serialize h)
  | sessionRemove id =>
    exact readOne_eq "session_id" PersistEvent.sessionRemove (readString_string id)
  | runUpsert id run =>
    exact readTwo_eq "session_id" "run" (by simp) PersistEvent.runUpsert (readString_string id)
      (AgentRun.deserialize_serialize h)
  | runRemove id runId =>
    exact readTwo_eq "session_id" "run_id" (by simp) PersistEvent.runRemove (readString_string id)
      (readString_string runId)

/-- The keys a row keeps: those of the object it carries. -/
inductive PersistEvent.Kept : PersistEvent → List Json.Step → Prop
  | sessionUpsert {s : Session} {path : List Json.Step} (h : Session.Kept path) :
    Kept (.sessionUpsert s) (.key "session" :: path)
  | runUpsert {id : String} {r : AgentRun} {path : List Json.Step}
    (h : Unknown AgentRun.declared path) : Kept (.runUpsert id r) (.key "run" :: path)

theorem PersistEvent.keeps {j : Json} {e : PersistEvent}
    (found : PersistEvent.deserialize float j = some e) {path : List Json.Step}
    (kept : e.Kept path) (numbers : j.ExactAt float path) :
    e.serialize.valueAt path = j.valueAt path := by
  obtain ⟨⟨name, content⟩, tagged, found⟩ := Option.bind_eq_some_iff.mp found
  simp only at found
  split at found
  case h_1 =>
    simp only [Option.bind_eq_bind, Option.bind_eq_some_iff, Option.pure_def, Option.some.injEq]
      at found
    obtain ⟨entries, same, s, slot, rfl⟩ := found
    obtain rfl := unique_eq_some same
    cases kept with
    | sessionUpsert h =>
      have layout : Layout ["kind", "session"]
        (("kind", some (.string "session.upsert")) :: PersistEvent.fields (.sessionUpsert s)) [] :=
        ⟨rfl, by decide, by simp⟩
      exact layout.keeps_tagged "session" tagged (by decide) rfl slot Session.keeps h
        numbers
  case h_3 =>
    simp only [Option.bind_eq_bind, Option.bind_eq_some_iff, Option.pure_def, Option.some.injEq]
      at found
    obtain ⟨entries, same, id, -, r, slot, rfl⟩ := found
    obtain rfl := unique_eq_some same
    cases kept with
    | runUpsert h =>
      have layout : Layout ["kind", "session_id", "run"]
        (("kind", some (.string "run.upsert")) :: PersistEvent.fields (.runUpsert id r)) [] :=
        ⟨rfl, by decide, by simp⟩
      exact layout.keeps_tagged "run" tagged (by decide) rfl slot AgentRun.keeps h
        numbers
  all_goals
    cases kept <;> simp [Option.bind_eq_some_iff] at found

/-! ## The wire and the log -/

/-- What is written as JSON, not nested too deep, is read back as it was, and what is read from JSON
and written again keeps the unknown keys of every session, run, location, editor and server in it,
wherever the numbers of their values are read back exactly. -/
theorem wire_round_trip (float : String → Option String) :
    (∀ s : Session, s.Proper float → s.serialize.depth < Json.recursionLimit →
      fromStr (Session.deserialize float) s.serialize = some s) ∧
    (∀ r : AgentRun, r.Proper float → r.serialize.depth < Json.recursionLimit →
      fromStr (AgentRun.deserialize float) r.serialize = some r) ∧
    (∀ e : Event, e.Proper float → e.serialize.depth < Json.recursionLimit →
      fromStr (Event.deserialize float) e.serialize = some e) ∧
    (∀ e : PersistEvent, e.Proper float → e.serialize.depth < Json.recursionLimit →
      fromStr (PersistEvent.deserialize float) e.serialize = some e) ∧
    (∀ m : ClientMessage, m.Proper float → m.serialize.depth < Json.recursionLimit →
      fromStr (ClientMessage.deserialize float) m.serialize = some m) ∧
    (∀ j s, fromStr (Session.deserialize float) j = some s → ∀ path, Session.Kept path →
      j.ExactAt float path → s.serialize.valueAt path = j.valueAt path) ∧
    (∀ j r, fromStr (AgentRun.deserialize float) j = some r →
      ∀ path, Unknown AgentRun.declared path →
        j.ExactAt float path → r.serialize.valueAt path = j.valueAt path) ∧
    (∀ j e, fromStr (Event.deserialize float) j = some e → ∀ path, e.Kept path →
      j.ExactAt float path → e.serialize.valueAt path = j.valueAt path) ∧
    (∀ j e, fromStr (PersistEvent.deserialize float) j = some e → ∀ path, e.Kept path →
      j.ExactAt float path → e.serialize.valueAt path = j.valueAt path) ∧
    ∀ j m, fromStr (ClientMessage.deserialize float) j = some m → ∀ path, m.Kept path →
      j.ExactAt float path → m.serialize.valueAt path = j.valueAt path :=
  ⟨fun _ h shallow => (fromStr_eq shallow).trans (Session.deserialize_serialize h),
    fun _ h shallow => (fromStr_eq shallow).trans (AgentRun.deserialize_serialize h),
    fun _ h shallow => (fromStr_eq shallow).trans (Event.deserialize_serialize h),
    fun _ h shallow => (fromStr_eq shallow).trans (PersistEvent.deserialize_serialize h),
    fun _ h shallow => (fromStr_eq shallow).trans (ClientMessage.deserialize_serialize h),
    fun _ _ found => Session.keeps _ _ (fromStr_eq_some found),
    fun _ _ found => AgentRun.keeps _ _ (fromStr_eq_some found),
    fun _ _ found _ => Event.keeps (fromStr_eq_some found),
    fun _ _ found _ => PersistEvent.keeps (fromStr_eq_some found),
    fun _ _ found _ => ClientMessage.keeps (fromStr_eq_some found)⟩

/-- The one double of the texts below that is printed as it was. -/
def readHalf (token : String) : Option String := if token = "0.5" then some "0.5" else none

/-- A session of a newer Hub, with a field of its own and one in its run. -/
theorem wire_round_trip_future_fields :
    let run : AgentRun := { AgentRun.plain "r" "n" .waiting with
      urgency := some .none
      extra := [("future_run_field", .array [.number "1", .null])] }
    let s : Session := { Session.plain "s" [run] with
      policy := some (.number "0.5")
      extra := [("a_future_field", .object [("nested", .null)]), ("b_future_field", .null)] }
    fromStr (Session.deserialize readHalf) s.serialize = some s := by
  intro run s
  have no_entries : ∀ declared, Extra.Proper readHalf declared [] :=
    fun _ => ⟨rfl, rfl, by simp⟩
  have no_opaque : ProperOpaque readHalf none := by simp [ProperOpaque]
  refine (wire_round_trip readHalf).1 s
    ⟨by decide, no_entries _, ?_, no_entries _, ?_, ?_, ⟨rfl, rfl, by decide⟩⟩ (by decide +kernel)
  · intro e h
    exact absurd h (by simp [s, Session.plain, Session.new])
  · intro r hr
    obtain rfl : r = run := List.mem_singleton.mp hr
    exact ⟨by decide, no_opaque, ⟨rfl, rfl, by decide⟩⟩
  · intro v h
    obtain rfl : .number "0.5" = v := Option.some.inj h
    exact ⟨rfl, rfl, by simp⟩

/-- An integer of more than 64 bits is read as a double and printed as one. -/
def readWide (token : String) : Option String :=
  if token = "123456789012345678901234567890" then some "1.2345678901234568e29" else none

/-- Arrays one inside another, as the policy of a session. -/
def nestedArrays : Nat → Json
  | 0 => .array []
  | n + 1 => .array [nestedArrays n]

theorem nestedArrays_proper (n : Nat) : ProperOpaque readHalf (some (nestedArrays n)) := by
  intro v found
  obtain rfl : nestedArrays n = v := Option.some.inj found
  clear found
  induction n with
  | zero => exact ⟨rfl, rfl, by simp [nestedArrays]⟩
  | succ n ih =>
    refine ⟨Json.isKeyed_array.mpr ?_, Json.exact_array.mpr ?_, by simp [nestedArrays]⟩
    · simpa using ih.1
    · simpa using ih.2.1

/-- A removal with a key a newer Hub added is accepted, and the key is not written again; a wide
integer under a key of a session comes back as a double; and a session that is nested too deep is
written and not read. -/
theorem round_trip_gaps :
    (¬ ∀ float j e, fromStr (Event.deserialize float) j = some e →
      ∀ path, Unknown ("type" :: e.fields.map Prod.fst) path →
        e.serialize.valueAt path = j.valueAt path) ∧
    (¬ ∀ float j s, fromStr (Session.deserialize float) j = some s →
      ∀ path, Session.Kept path → s.serialize.valueAt path = j.valueAt path) ∧
    ¬ ∀ float (s : Session), s.Proper float →
      fromStr (Session.deserialize float) s.serialize = some s := by
  refine ⟨fun keeps => ?_, fun keeps => ?_, fun reads => ?_⟩
  · have dropped : none = some (Json.string "ignored-but-ok") := keeps readHalf
      (.object [("type", .string "session.removed"), ("schema_version", .number "1"),
        ("session_id", .string "s1"), ("future_envelope_field", .string "ignored-but-ok")])
      (.sessionRemoved 1 "s1") rfl [.key "future_envelope_field"]
      ⟨"future_envelope_field", by decide, rfl⟩
    simp at dropped
  · have printed : some (Json.number "1.2345678901234568e29") =
        some (.number "123456789012345678901234567890") := keeps readWide
      (Session.serialize { Session.plain "s" [] with
        extra := [("future_field", .number "123456789012345678901234567890")] })
      { Session.plain "s" [] with extra := [("future_field", .number "1.2345678901234568e29")] }
      rfl [.key "future_field"] (.own ⟨"future_field", by decide, rfl⟩)
    simp at printed
  · have no_entries : ∀ declared, Extra.Proper readHalf declared [] :=
      fun _ => ⟨rfl, rfl, by simp⟩
    have read := reads readHalf { Session.plain "s" [] with policy := some (nestedArrays 126) }
      ⟨by decide, no_entries _, by simp [Session.plain, Session.new], no_entries _,
        by simp [Session.plain], nestedArrays_proper 126, no_entries _⟩
    rw [fromStr, if_neg (by decide +kernel)] at read
    cases read

end VsFleet
