import VsFleet.Host.PhoneHome
import VsFleet.Misc.Runs
import VsFleet.Reporter.Proofs.Corroborators

/-!
# A server comes back to a Fleet that was started again

The token that a start of Fleet keeps in the file is the one every later start reads there; it goes
to a server with the variables of its process, and from there into every hello the extension sends.
-/

namespace VsFleet

/-! ## The token -/

theorem lowerHexDigit_spec : ∀ n : Fin 16, isAsciiHexdigit (lowerHexDigit n) = true ∧
    (lowerHexDigit n).utf8Size = 1 := by
  decide

/-- Characters of one byte each. -/
theorem utf8ByteSize_ofList {text : List Char} (ascii : ∀ c ∈ text, c.utf8Size = 1) :
    (String.ofList text).utf8ByteSize = text.length := by
  induction text with
  | nil => rfl
  | cons c text ih =>
    have rest := ih (fun c' mem => ascii c' (List.mem_cons_of_mem _ mem))
    have first := ascii c List.mem_cons_self
    rw [← List.singleton_append, String.ofList_append, String.utf8ByteSize_append, rest,
      ← String.singleton_eq_ofList, String.utf8ByteSize_singleton, first, List.length_append,
      List.length_singleton]

/-- A fresh token is one. -/
theorem isLaunchToken_tokenFromEntropy (bytes : Vector UInt8 16) (fromUrandom : Bool)
    (fallback : List UInt8) : isLaunchToken (tokenFromEntropy bytes fromUrandom fallback) := by
  unfold tokenFromEntropy
  generalize mixed : (if fromUrandom then bytes else mixFallbackEntropy bytes fallback) = bytes'
  have digits : ∀ c ∈ bytes'.toList.flatMap (fun b =>
      [lowerHexDigit (b.toNat / 16), lowerHexDigit (b.toNat % 16)]),
      ∃ n : Fin 16, c = lowerHexDigit n := by
    intro c mem
    obtain ⟨b, -, digit⟩ := List.mem_flatMap.mp mem
    have small := b.toNat_lt
    rcases List.mem_cons.mp digit with rfl | digit
    · exact ⟨⟨b.toNat / 16, by omega⟩, rfl⟩
    · exact ⟨⟨b.toNat % 16, by omega⟩, List.mem_singleton.mp digit⟩
  have count : (bytes'.toList.flatMap (fun b =>
      [lowerHexDigit (b.toNat / 16), lowerHexDigit (b.toNat % 16)])).length = 32 := by
    simp [List.length_flatMap]
  unfold isLaunchToken encodeToken
  rw [Bool.and_eq_true, decide_eq_true_iff, utf8ByteSize_ofList, String.toList_ofList,
    List.all_eq_true]
  · refine ⟨count, fun c mem => ?_⟩
    obtain ⟨n, rfl⟩ := digits c mem
    exact (lowerHexDigit_spec n).1
  · intro c mem
    obtain ⟨n, rfl⟩ := digits c mem
    exact (lowerHexDigit_spec n).2

theorem not_isWhitespace_of_isAsciiHexdigit {c : Char} (digit : isAsciiHexdigit c = true) :
    isWhitespace c = false := by
  have range : (48 ≤ c.toNat ∧ c.toNat ≤ 57) ∨ (65 ≤ c.toNat ∧ c.toNat ≤ 70) ∨
      (97 ≤ c.toNat ∧ c.toNat ≤ 102) := by
    simpa [isAsciiHexdigit, Char.le_def, UInt32.le_iff_toNat_le, or_assoc] using digit
  simp [isWhitespace]
  omega

theorem trim_eq_self {text : List Char} (said : ∀ c ∈ text, isWhitespace c = false) :
    trim text = text := by
  have start : ∀ text : List Char, (∀ c ∈ text, isWhitespace c = false) →
      trimStart text = text := by
    intro text said
    cases text with
    | nil => rfl
    | cons c text => simp [trimStart, said c List.mem_cons_self]
  rw [trim, start text said, start _ (by simpa using said), List.reverse_reverse]

/-- The line that is written for a token reads as the token. -/
theorem tokenOfFile_line {token : String} (valid : isLaunchToken token = true) :
    tokenOfFile (token ++ "\n") = some token := by
  have digits : ∀ c ∈ token.toList, isWhitespace c = false := by
    rw [isLaunchToken, Bool.and_eq_true, List.all_eq_true] at valid
    exact fun c mem => not_isWhitespace_of_isAsciiHexdigit (valid.2 c mem)
  have line : trim (token ++ "\n").toList = token.toList := by
    rw [String.toList_append]
    exact (trim_append_whitespace (by decide) _).trans (trim_eq_self digits)
  simp only [tokenOfFile, line, String.ofList_toList, valid, if_true]

/-- A start keeps its token when the file had one, or when the fresh one could be written. -/
def Boot.Keeps (boot : Boot) (file : Option String) : Prop :=
  (boot.readable = true ∧ file.bind tokenOfFile ≠ none) ∨ boot.failedWrite = none

/-- A start that finds a token leaves the file alone. -/
theorem launchTokenFromPath_found {file : Option String} {boot : Boot} {token : String}
    (readable : boot.readable = true) (found : file.bind tokenOfFile = some token) :
    launchTokenFromPath file boot = (token, file) := by
  simp only [launchTokenFromPath, readable, if_true, found]

theorem launchTokenFromPath_keeps {file : Option String} {boot : Boot} (keeps : boot.Keeps file) :
    ((launchTokenFromPath file boot).2).bind tokenOfFile =
      some (launchTokenFromPath file boot).1 := by
  unfold launchTokenFromPath
  split
  · rename_i token found
    split at found
    · exact found
    · cases found
  · rename_i fresh
    rcases keeps with ⟨readable, token⟩ | written
    · rw [if_pos readable] at fresh
      exact absurd fresh token
    · have line : tokenOfFile (boot.launchToken ++ "\n") = some boot.launchToken :=
        tokenOfFile_line
          (isLaunchToken_tokenFromEntropy boot.entropy boot.fromUrandom boot.fallback)
      simp only [written, Option.bind_some, line]

/-- The file after a number of starts. -/
def fileAfter (file : Option String) (boots : List Boot) : Option String :=
  boots.foldl (fun file boot => (launchTokenFromPath file boot).2) file

theorem fileAfter_found {file : Option String} {token : String}
    (found : file.bind tokenOfFile = some token) {boots : List Boot}
    (readable : ∀ boot ∈ boots, boot.readable = true) : fileAfter file boots = file := by
  induction boots with
  | nil => rfl
  | cons boot boots ih =>
    have same := launchTokenFromPath_found (readable boot List.mem_cons_self) found
    rw [fileAfter, List.foldl_cons, same]
    exact ih (fun boot' mem => readable boot' (List.mem_cons_of_mem _ mem))

/-- Every later start that can read the file has the token of the one that kept it. -/
theorem launchTokenFromPath_later {file : Option String} {first last : Boot}
    (keeps : first.Keeps file) {boots : List Boot} (readable : ∀ boot ∈ boots, boot.readable = true)
    (readable' : last.readable = true) :
    (launchTokenFromPath (fileAfter (launchTokenFromPath file first).2 boots) last).1 =
      (launchTokenFromPath file first).1 := by
  have kept := launchTokenFromPath_keeps keeps
  rw [fileAfter_found kept readable, launchTokenFromPath_found readable' kept]

/-! ## The variables -/

/-- What the extension reads of the variables that a server is started with, behind those of Fleet
itself. -/
theorem ofVars_fleetEnv (ambient : List (String × String))
    (reporterSocket id label bridgeUrl : String) (bridgeSocket : Option String)
    (serverUrl token logDir : String) :
    FleetBridge.BridgeEnv.ofVars (ambient ++
      fleetEnv reporterSocket id label bridgeUrl bridgeSocket serverUrl token logDir) =
    ⟨(bridgeSocket.filter (fun s => s ≠ "")).or (envVar ambient "FLEET_BRIDGE_SOCKET"),
      some bridgeUrl, some id, some serverUrl, some label, some token⟩ := by
  unfold fleetEnv
  generalize bridgeSocket.filter (fun s => s ≠ "") = socket
  cases socket <;> simp [FleetBridge.BridgeEnv.ofVars, envVar]

/-! ## The hello -/

namespace FleetBridge

theorem truthy_getD (s other : String) :
    (truthy (some s)).getD other = if s = "" then other else s := by
  by_cases empty : s = "" <;> simp [truthy, Option.filter, empty]

/-- With a place to dial and an id the extension dials. -/
theorem activate_live {env : BridgeEnv} {serverId : String} (target : bridgeTarget env ≠ none)
    (named : truthy env.serverId = some serverId) :
    ∃ b, activate env = some b ∧ b.Live ∧ b.serverId = serverId ∧ b.sent = [] := by
  obtain ⟨place, found⟩ := Option.ne_none_iff_exists'.mp target
  rw [activate, found, named]
  exact ⟨_, rfl, ⟨0, ⟨place, false, false, false⟩, rfl, rfl, rfl⟩, rfl, rfl⟩

/-- The extension keeps its server id, and each hello it has sent is that of its environment. -/
def Bridge.Introduces (env : BridgeEnv) (b b' : Bridge) : Prop :=
  b'.serverId = b.serverId ∧
    ∀ socket r, (socket, Frame.hello r) ∈ b'.sent → r = b.registration env

section Introduces

variable {env : BridgeEnv} {b b' : Bridge}

theorem Bridge.Introduces.quiet (h : b.Introduces env b') {later : Bridge}
    (serverId : later.serverId = b'.serverId) (sent : later.sent = b'.sent) :
    b.Introduces env later :=
  ⟨serverId.trans h.1, by rw [sent]; exact h.2⟩

theorem Bridge.clearHeartbeat_serverId (b : Bridge) : b.clearHeartbeat.serverId = b.serverId := by
  unfold Bridge.clearHeartbeat; split <;> rfl

theorem Bridge.clearHeartbeat_sent (b : Bridge) : b.clearHeartbeat.sent = b.sent := by
  unfold Bridge.clearHeartbeat; split <;> rfl

theorem Bridge.Introduces.clearHeartbeat (h : b.Introduces env b') :
    b.Introduces env b'.clearHeartbeat :=
  h.quiet b'.clearHeartbeat_serverId b'.clearHeartbeat_sent

theorem Bridge.Introduces.connect (h : b.Introduces env b') : b.Introduces env b'.connect := by
  unfold Bridge.connect
  split
  · exact h
  · exact h.quiet rfl rfl

theorem Bridge.Introduces.onOpen (h : b.Introduces env b') (socket : Nat) :
    b.Introduces env (b'.onOpen env socket) := by
  have same : b'.registration env = b.registration env := by
    simp only [Bridge.registration, h.1]
  have told : b.Introduces env { b' with
      backoffMs := backoffStartMs
      sent := b'.sent ++ [(socket, .hello (b'.registration env))]
      history := b'.history ++ [.opened socket] } := by
    refine ⟨h.1, fun socket' r mem => ?_⟩
    rcases List.mem_append.mp mem with old | new
    · exact h.2 socket' r old
    · cases List.mem_singleton.mp new
      exact same
  exact told.clearHeartbeat.quiet rfl rfl

theorem Bridge.Introduces.reconnect (h : b.Introduces env b') (socket : Nat) :
    b.Introduces env (b'.reconnect socket) := by
  unfold Bridge.reconnect
  split
  · exact h
  · exact h.clearHeartbeat.quiet rfl rfl

theorem Bridge.Introduces.dispose (h : b.Introduces env b') : b.Introduces env b'.dispose := by
  have stopped : ∀ timeouts, b.Introduces env
      { b' with disposed := true, timeouts := timeouts }.clearHeartbeat :=
    fun timeouts => Bridge.Introduces.clearHeartbeat (h.quiet rfl rfl)
  unfold Bridge.dispose
  dsimp only
  split
  · exact (stopped _).quiet rfl rfl
  · exact stopped _

theorem Bridge.Introduces.step (h : b.Introduces env b') (event : Event) :
    b.Introduces env (b'.step env event) := by
  cases event with
  | opened socket =>
    refine Bridge.Introduces.onOpen ?_ socket
    exact h.quiet rfl rfl
  | errored socket => exact h.quiet rfl rfl
  | closed socket =>
    refine Bridge.Introduces.reconnect ?_ socket
    exact h.quiet rfl rfl
  | expired timer => exact Bridge.Introduces.connect (h.quiet rfl rfl)
  | ticked timer =>
    refine ⟨h.1, fun socket r mem => ?_⟩
    rcases List.mem_append.mp mem with old | ping
    · exact h.2 socket r old
    · obtain ⟨interval, -, same⟩ := List.mem_map.mp ping
      cases same
  | disposed => exact h.dispose

end Introduces

end FleetBridge

/-- A hello with an id is taken by who expects its token or none, and by nobody else. -/
theorem parseHello_registration (r : FleetBridge.Registration) (expected : String) :
    parseHello r.json expected =
      if expected ≠ "" ∧ r.token ≠ expected then .reject (some r.serverId)
      else .accept ⟨r.serverId, r.url, r.label⟩ := by
  simp [parseHello, FleetBridge.Registration.json, Json.get?, Json.asString]

/-- A server that Fleet has started comes back to it. After a start of Fleet that kept its token,
the variables it gives a server make the extension there dial, and whatever happens to the sockets
and timers of the extension, each hello it sends is accepted by any later start that can read the
token file, with the id, url and label the server was given, and rejected by whoever expects another
token. -/
theorem comes_back (file : Option String) (first : Boot) (keeps : first.Keeps file)
    (boots : List Boot) (readable : ∀ boot ∈ boots, boot.readable = true)
    (last : Boot) (readable' : last.readable = true)
    (ambient : List (String × String)) (reporterSocket id label bridgeUrl : String)
    (bridgeSocket : Option String) (serverUrl logDir : String)
    (named : id ≠ "") (reachable : bridgeUrl ≠ "") :
    let (token, kept) := launchTokenFromPath file first
    let (expected, _) := launchTokenFromPath (fileAfter kept boots) last
    let env := FleetBridge.BridgeEnv.ofVars (ambient ++
      fleetEnv reporterSocket id label bridgeUrl bridgeSocket serverUrl token logDir)
    ∃ b, FleetBridge.activate env = some b ∧ b.Live ∧
      ∀ events : List FleetBridge.Event, ∀ socket r,
        (socket, FleetBridge.Frame.hello r) ∈
          (events.foldl (FleetBridge.Bridge.step env) b).sent →
        parseHello r.json expected = .accept ⟨id, serverUrl, if label = "" then id else label⟩ ∧
          ∀ other, other ≠ "" → other ≠ token → parseHello r.json other = .reject (some id) := by
  have same := launchTokenFromPath_later keeps readable readable'
  generalize launchTokenFromPath file first = kept at same ⊢
  obtain ⟨token, kept⟩ := kept
  dsimp only at same ⊢
  rw [same, ofVars_fleetEnv]
  generalize told : FleetBridge.BridgeEnv.mk _ _ _ _ _ _ = env
  have target : FleetBridge.bridgeTarget env ≠ none := by
    rw [← told, FleetBridge.bridgeTarget]
    split
    · simp
    · simp [FleetBridge.truthy, reachable]
  have name : FleetBridge.truthy env.serverId = some id := by
    simp [← told, FleetBridge.truthy, named]
  obtain ⟨b, dials, live, serverId, silent⟩ := FleetBridge.activate_live target name
  refine ⟨b, dials, live, fun events socket r mem => ?_⟩
  have introduces : b.Introduces env (events.foldl (FleetBridge.Bridge.step env) b) :=
    foldl_invariant (fun b' => b.Introduces env b') (fun _ event h => h.step event) events b
      ⟨rfl, by simp [silent]⟩
  have hello : r = ⟨id, serverUrl, if label = "" then id else label, FleetBridge.caps, token⟩ := by
    rw [introduces.2 socket r mem, FleetBridge.Bridge.registration, serverId, ← told]
    simp only [FleetBridge.truthy_getD, FleetBridge.Registration.mk.injEq]
    grind
  rw [hello]
  refine ⟨?_, fun other some_token differs => ?_⟩
  · rw [parseHello_registration, if_neg (fun both => both.2 rfl)]
  · rw [parseHello_registration, if_pos ⟨some_token, Ne.symm differs⟩]

/-- A first start of Fleet, and one after a reboot that could no longer write. -/
theorem comes_back_once :
    let boot : Boot := ⟨true, Vector.replicate 16 255, true, [], none⟩
    let (token, kept) := launchTokenFromPath none boot
    let (expected, _) :=
      launchTokenFromPath (fileAfter kept []) { boot with failedWrite := some none }
    let env := FleetBridge.BridgeEnv.ofVars ([] ++
      fleetEnv "/tmp/r.sock" "a" "A" "ws://127.0.0.1:1" none "http://a" token "/tmp")
    ∃ b, FleetBridge.activate env = some b ∧ b.Live ∧
      ∀ events : List FleetBridge.Event, ∀ socket r,
        (socket, FleetBridge.Frame.hello r) ∈
          (events.foldl (FleetBridge.Bridge.step env) b).sent →
        parseHello r.json expected = .accept ⟨"a", "http://a", if "A" = "" then "a" else "A"⟩ ∧
          ∀ other, other ≠ "" → other ≠ token → parseHello r.json other = .reject (some "a") :=
  comes_back none ⟨true, Vector.replicate 16 255, true, [], none⟩ (Or.inr rfl) [] (by simp)
    ⟨true, Vector.replicate 16 255, true, [], some none⟩ rfl [] "/tmp/r.sock" "a" "A"
    "ws://127.0.0.1:1" none "http://a" "/tmp" (by decide) (by decide)

end VsFleet
