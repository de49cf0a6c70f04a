import VsFleet.Misc.OrderedMap

/-!
# The editor surfaces

The webview each server has for its editor (`fleet-host/src/mux.rs`), and the registry of the ones
Fleet has made (`fleet-host/src/surface.rs`). What the window system does with a call is an outcome
of the step; no lock is poisoned. The one webview of the mode without keepalive is left out.
-/

namespace VsFleet

/-- A byte that `editor_label_for` leaves. -/
def labelPlain (byte : UInt8) : Bool :=
  (48 ≤ byte && byte ≤ 57) || (65 ≤ byte && byte ≤ 90) || (97 ≤ byte && byte ≤ 122) ||
    byte == 45 || byte == 95 || byte == 46

/-- `editor_label_for` (`mux.rs:91-102`). -/
def editorLabelFor (id : String) : String :=
  "editor:" ++ String.ofList ((id.toList.flatMap String.utf8EncodeChar).flatMap (fun byte =>
    if labelPlain byte then [Char.ofNat byte.toNat]
    else ['~', Nat.digitChar (byte.toNat / 16), Nat.digitChar (byte.toNat % 16)]))

/-- `SurfaceEntry` (`surface.rs:12-15`). -/
structure SurfaceEntry where
  label : String
  loadedUrl : Option String
  deriving DecidableEq, Repr

/-- `SurfaceLayout` (`surface.rs:17-21`). -/
structure SurfaceLayout where
  activeLabel : Option String
  inactiveLabels : List String
  deriving DecidableEq, Repr

/-- The persistent surfaces of the `SurfaceRegistry` by the id of the server, and the webviews there
are by their label, with the URL each was navigated to last. -/
structure EditorSurfaces where
  persistent : HashMap String SurfaceEntry
  webviews : HashMap String String

/-- What the window and its webviews answer while a server is selected: whether the window is there,
the webview is added, the URL parses and the navigation begins. -/
structure SurfaceOutcomes where
  window : Bool
  added : Bool
  parsed : Bool
  navigated : Bool
  deriving DecidableEq, Repr

/-- A server is selected, with the URL that is known for it, or closed. -/
inductive SurfaceStep where
  | select (id : String) (url : Option String) (force : Bool) (outcomes : SurfaceOutcomes)
  | close (id : String) (closed : Bool)
  deriving DecidableEq, Repr

namespace EditorSurfaces

/-- `new` (`surface.rs:31-33`), before there is a webview. -/
def new : EditorSurfaces := ⟨∅, ∅⟩

/-- `persistent_label` (`surface.rs:61-66`). -/
def persistentLabel (s : EditorSurfaces) (id : String) : Option String :=
  (s.persistent.lookup id).map (fun entry => entry.label)

/-- `register_persistent` (`surface.rs:68-77`): an entry that is there stays. -/
def registerPersistent (s : EditorSurfaces) (id label : String) : EditorSurfaces :=
  match s.persistent.lookup id with
  | some _ => s
  | none => { s with persistent := s.persistent.insert id ⟨label, none⟩ }

/-- `persistent_needs_navigation` (`surface.rs:79-89`). -/
def persistentNeedsNavigation (s : EditorSurfaces) (id target : String) (force : Bool) : Bool :=
  match s.persistent.lookup id with
  | some entry => force || entry.loadedUrl ≠ some target
  | none => force

/-- `record_persistent_navigation` (`surface.rs:91-97`). -/
def recordPersistentNavigation (s : EditorSurfaces) (id target : String) : EditorSurfaces :=
  match s.persistent.lookup id with
  | some entry => { s with
      persistent := s.persistent.insert id { entry with loadedUrl := some target } }
  | none => s

/-- `ensure_persistent_editor` (`mux.rs:658-704`). -/
def ensurePersistentEditor (s : EditorSurfaces) (id : String) (outcomes : SurfaceOutcomes) :
    Option String × EditorSurfaces :=
  match s.persistentLabel id with
  | some label => (some label, s)
  | none =>
    let label := editorLabelFor id
    if label ∈ s.webviews then (some label, s.registerPersistent id label)
    else if outcomes.window && outcomes.added then
      (some label, { s with
        webviews := s.webviews.insert label "about:blank" }.registerPersistent id label)
    else (none, s)

/-- `navigate_persistent_editor` (`mux.rs:708-760`). -/
def navigatePersistentEditor (s : EditorSurfaces) (id label target : String) (force : Bool)
    (outcomes : SurfaceOutcomes) : EditorSurfaces :=
  if s.persistentNeedsNavigation id target force ∧ outcomes.parsed ∧ label ∈ s.webviews ∧
      outcomes.navigated then
    { s with webviews := s.webviews.insert label target }.recordPersistentNavigation id target
  else s

/-- `select_persistent` (`mux.rs:625-639`), and the same without its `retile` is
`refresh_persistent_editor` (`mux.rs:643-654`). -/
def selectPersistent (s : EditorSurfaces) (id : String) (url : Option String) (force : Bool)
    (outcomes : SurfaceOutcomes) : EditorSurfaces :=
  match url with
  | none => s
  | some target =>
    match s.ensurePersistentEditor id outcomes with
    | (none, s) => s
    | (some label, s) => s.navigatePersistentEditor id label target force outcomes

/-- `close_editor` (`mux.rs:847-868`) with the `remove_persistent` of the registry
(`surface.rs:99-104`). -/
def closeEditor (s : EditorSurfaces) (id : String) (closed : Bool) : EditorSurfaces :=
  match s.persistentLabel id with
  | none => s
  | some label => ⟨s.persistent.erase id,
      if closed then s.webviews.erase label else s.webviews⟩

/-- `layout` (`surface.rs:106-123`). -/
def layout (s : EditorSurfaces) (selectedSessionId : Option String) : SurfaceLayout where
  activeLabel := (s.persistent.entries.filter (fun entry =>
    selectedSessionId = some entry.1)).getLast?.map (fun entry => entry.2.label)
  inactiveLabels := ((s.persistent.entries.filter (fun entry =>
    selectedSessionId ≠ some entry.1)).map (fun entry => entry.2.label)).mergeSort

/-- A selection or a close. -/
def step (s : EditorSurfaces) : SurfaceStep → EditorSurfaces
  | .select id url force outcomes => s.selectPersistent id url force outcomes
  | .close id closed => s.closeEditor id closed

end EditorSurfaces

end VsFleet
