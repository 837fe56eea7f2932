import PvrBackend.Proofs.Session.Outcomes

/-!
# A pairing survives a restart

What a login stores after pairing a device is found by the next client on the same device: it
takes the credentials from there and logs in as the first one did, without removing a device or
pairing one.

The next client looks for its own user and serial. The serial is made of what identifies the
device, so it comes out the same only if there is something that does: the identifier in the
settings or a network address. A device without either gets a serial of the moment of its start,
and is a new one after every restart.
-/

namespace PvrBackend

namespace PairingRecord

/-- No floating-point number is among what the service sent along. -/
def Whole (r : PairingRecord) : Prop := ∀ m ∈ r.extra.entries, m.2.Whole

/-- A record is known by what blurring leaves of it if its numbers are whole. -/
theorem Whole.eq_of_blur_eq {r r' : PairingRecord} (whole : r.Whole) (same : r'.blur = r.blur) :
    r' = r := by
  have extra : r'.extra = r.extra := by
    have images := congrArg (fun r : PairingRecord => r.extra.entries) same
    simp only [blur, Table.entries_mapValues, ← Json.blurMembers_eq_map] at images
    apply Table.ext
    exact Json.eq_of_blurMembers_eq (fun m member => (whole m member).eq_of_blur_eq) images
  injection same with status deviceId password userName serial
  cases r
  cases r'
  simp_all

/-- A record with whole numbers is read back from its text as it was. -/
theorem read_render_of_whole {r : PairingRecord} (readable : r.Readable) (whole : r.Whole) :
    read r.render = some r := by
  obtain ⟨r', read, same⟩ := read_render readable
  rw [read, whole.eq_of_blur_eq same]

end PairingRecord

namespace Device

/-- Something identifies the device whenever it starts: the settings, or its network address. -/
def Identified (d : Device) (s : Settings) : Prop := s.deviceId ≠ "" ∨ d.address.getD "" ≠ ""

/-- What the serial is made of does not depend on the moment if something identifies the
device. -/
theorem Identified.identifier_eq {d : Device} {s : Settings} (identified : d.Identified s)
    (now now' : Int) :
    identifier s.deviceId d.address now' = identifier s.deviceId d.address now := by
  by_cases chosen : s.deviceId ≠ ""
  · simp only [identifier, if_pos chosen]
  · have addressed : d.address.getD "" ≠ "" := identified.resolve_left chosen
    simp only [identifier, if_neg chosen]
    split
    · exact absurd (by simp [*]) addressed
    · exact absurd (by simp [*]) addressed
    · rfl

/-- The account on an identified device is the same whenever the device starts. -/
theorem Identified.ofSettings_eq {d : Device} {s : Settings} (identified : d.Identified s)
    (now now' : Int) : Account.ofSettings s d now' = Account.ofSettings s d now := by
  simp only [Account.ofSettings, serial, identified.identifier_eq now now']

end Device

namespace Client

/-- A login asks for a new pairing. -/
def PairsAnew (c : Client) : Prop :=
  ∃ x ∈ c.login.2.exchanges.drop c.exchanges.length, x.request.endpoint = .createPairing

instance (c : Client) : Decidable c.PairsAnew :=
  inferInstanceAs (Decidable (∃ x ∈ c.login.2.exchanges.drop c.exchanges.length,
    x.request.endpoint = .createPairing))

/-- Credentials that are obtained were there before, or come with a pairing that is stored. -/
theorem ensureCredentials_of_ok {c : Client} (writable : c.pairStore.writable = true)
    (ok : c.ensureCredentials.1 = .ok ()) :
    c.ensureCredentials.2.exchanges = c.exchanges ∨ PairedSince c c.ensureCredentials.2 := by
  rw [ensureCredentials] at ok ⊢
  split at ok
  next valid =>
    rw [if_pos valid]
    exact .inl rfl
  next invalid =>
    rw [if_neg invalid]
    have paired := c.pair_pairing
    generalize c.pair = attempt at ok paired ⊢
    cases paired with
    | reused => exact .inl rfl
    | unusable => cases ok
    | kept => cases ok
    | refused => cases ok
    | renewed cleared paired => exact .inr (cleared.pairedSince writable paired)

/-- A login that succeeds ends with one request to log in, made with the credentials that the
client has from then on. -/
theorem login_of_ok {c : Client} (writable : c.pairStore.writable = true)
    (ok : c.login.1 = .ok ()) :
    Ready c.locked c.atLogin ∧
      c.login.2.exchanges =
        c.atLogin.exchanges ++ [⟨c.atLogin.opening, (c.atLogin.send c.atLogin.opening).1⟩] ∧
      c.login.2.credentials = c.atLogin.credentials ∧
      c.login.2.pairStore = c.atLogin.pairStore := by
  have ensuring := ensureCredentials_ensuring (c := c.locked) writable
  have login := c.login_eq
  cases result : c.locked.ensureCredentials with
  | mk answer c' =>
      rw [result] at ensuring login
      cases ensuring with
      | failed =>
          rw [login] at ok
          cases ok
      | ready ready =>
          obtain rfl : c.atLogin = c' := congrArg Prod.snd result
          have opening := c.atLogin.openSession_opening
          have ends : c.login = c.atLogin.openSession := login
          rw [ends] at ok ⊢
          generalize c.atLogin.openSession = attempt at opening ok ⊢
          cases opening with
          | opened => exact ⟨ready, rfl, rfl, rfl⟩
          | unanswered => cases ok
          | rejected => cases ok

theorem ensured_of_ok {c : Client} (ok : c.login.1 = .ok ()) :
    c.locked.ensureCredentials.1 = .ok () := by
  rw [login_eq] at ok
  split at ok
  next e c' result => cases ok
  next c' result => rw [result]

/-- What a login that paired a device and succeeded leaves in the store. -/
theorem pairedSince_of_pairsAnew {c : Client} (writable : c.pairStore.writable = true)
    (ok : c.login.1 = .ok ()) (anew : c.PairsAnew) : PairedSince c c.login.2 := by
  obtain ⟨-, sent, credentials, pairStore⟩ := login_of_ok writable ok
  rcases ensureCredentials_of_ok (c := c.locked) writable (ensured_of_ok ok) with silent | paired
  · obtain ⟨x, member, create⟩ := anew
    have quiet : c.login.2.exchanges =
        c.exchanges ++ [⟨c.atLogin.opening, (c.atLogin.send c.atLogin.opening).1⟩] := by
      rw [sent, atLogin, silent]
      rfl
    rw [quiet, List.drop_left, List.mem_singleton] at member
    rw [member] at create
    cases create
  · exact paired.grown sent credentials pairStore

/-- A client that finds its own pairing logs in with it and sends nothing else. -/
theorem login_of_usable {account : Account} (server : Server) {pairStore : PairStore}
    {stored : PairingRecord} (record : pairStore.record? = some stored)
    (own : stored.isFor account.userName account.serial = true)
    (device : stored.hasDevice = true) :
    ∃ reply, (fresh account server pairStore).login.2.exchanges =
      [⟨{ fresh account server pairStore with credentials := stored.credentials }.opening,
        reply⟩] := by
  have paired : (fresh account server pairStore).pair =
      (.ok (), { fresh account server pairStore with credentials := stored.credentials }) := by
    have read : (fresh account server pairStore).pairStore.record? = some stored := record
    have mine : stored.isFor (fresh account server pairStore).account.userName
      (fresh account server pairStore).account.serial = true := own
    rw [pair, read]
    dsimp only
    rw [if_pos mine, adopt_of_hasDevice device]
  rw [login_fresh, paired]
  exact ⟨_, openSession_exchanges _⟩

/-- The request to log in depends on the service and the credentials only. -/
theorem opening_congr {c c' : Client} (provider : c'.account.provider = c.account.provider)
    (credentials : c'.credentials = c.credentials) : c'.opening = c.opening := by
  rw [opening, opening, request, request, loginParams, loginParams, provider, credentials]

/-- A record with whole numbers in it is read back from its text. And when a login paired a
device, succeeded and could store the pairing, the next client on the same device, if something
identifies that, sends nothing on its first login but the request with which the device logged
in. -/
theorem pairing_survives_restart :
    (∀ r : PairingRecord, r.Readable → r.Whole → PairingRecord.read r.render = some r) ∧
    ∀ (s : Settings) (device : Device) (now now' : Int) (c : Client) (server : Server)
      (pairStore : PairStore),
      device.Identified s → c.account = .ofSettings s device now →
      c.pairStore.writable = true → c.login.1 = .ok () → c.PairsAnew →
      pairStore.content = c.login.2.pairStore.content →
      ∃ x y, c.login.2.exchanges.getLast? = some x ∧
        x.request.endpoint = .deviceLogin ∧
        ("deviceId", c.login.2.credentials.deviceId) ∈ x.request.params ∧
        ("password", c.login.2.credentials.password) ∈ x.request.params ∧
        (fresh (.ofSettings s device now') server pairStore).login.2.exchanges = [y] ∧
        y.request = x.request := by
  refine ⟨fun r readable whole => PairingRecord.read_render_of_whole readable whole, ?_⟩
  intro s device now now' c server pairStore identified account writable ok anew content
  obtain ⟨-, stored, record, own, adopted⟩ := pairedSince_of_pairsAnew writable ok anew
  obtain ⟨ready, sent, kept, -⟩ := login_of_ok writable ok
  have device_eq : stored.hasDevice = true := by
    rw [← PairingRecord.valid_credentials, adopted, kept, ready.valid]
  have same : Account.ofSettings s device now' = c.account := by
    rw [account, identified.ofSettings_eq now now']
  have found : pairStore.record? = some stored := by
    rw [← record, PairStore.record?, PairStore.record?, content]
  rw [← same] at own
  obtain ⟨reply, alone⟩ := login_of_usable server found own device_eq
  refine ⟨_, _, by rw [sent, List.getLast?_concat], rfl, ?_, ?_, alone, ?_⟩
  · rw [kept]
    exact List.mem_cons_self
  · rw [kept]
    exact List.mem_cons_of_mem _ List.mem_cons_self
  · refine opening_congr (congrArg Account.provider ?_) (adopted.trans kept)
    exact same.trans ready.account.symm

/-- The settings of a user. -/
def jan : Settings := { userName := "jan", password := "secret" }

/-- A device with a network address. -/
def box : Device := { address := some "001122334455" }

/-- The first start of a user's client on a device. -/
def firstStart (device : Device) : Client := fresh (.ofSettings jan device 1) forgiving {}

/-- A pairing with a text in it that needs quoting. -/
def oddPairing : PairingRecord :=
  { status := 1, deviceId := "42", password := "a\"\n", userName := "jan", serial := "é",
    extra := Table.empty.insert "notes" (.array [.string "\t", .number (.int 7)]) }

/-- A pairing is read back, and the one made on the first start lets the second in. -/
theorem pairing_of_box_survives :
    oddPairing.Readable ∧ oddPairing.Whole ∧
    PairingRecord.read oddPairing.render = some oddPairing ∧
    box.Identified jan ∧ (firstStart box).login.1 = .ok () ∧ (firstStart box).PairsAnew ∧
    ∃ x y, (firstStart box).login.2.exchanges.getLast? = some x ∧
      x.request.endpoint = .deviceLogin ∧
      ("deviceId", (firstStart box).login.2.credentials.deviceId) ∈ x.request.params ∧
      ("password", (firstStart box).login.2.credentials.password) ∈ x.request.params ∧
      (fresh (.ofSettings jan box 2) forgiving
        (firstStart box).login.2.pairStore).login.2.exchanges = [y] ∧
      y.request = x.request := by
  have readable : oddPairing.Readable := by
    intro m member
    obtain rfl := List.mem_singleton.mp member
    refine ⟨by decide, .array (List.forall_mem_cons.mpr ⟨.string _, ?_⟩)⟩
    exact List.forall_mem_singleton.mpr (.number ⟨by decide, by decide⟩)
  have whole : oddPairing.Whole := by
    intro m member
    obtain rfl := List.mem_singleton.mp member
    exact .array (List.forall_mem_cons.mpr ⟨.string _, List.forall_mem_singleton.mpr (.int _)⟩)
  have identified : box.Identified jan := .inr (by decide)
  have ok : (firstStart box).login.1 = .ok () := by decide +kernel
  have anew : (firstStart box).PairsAnew := by decide +kernel
  exact ⟨readable, whole, pairing_survives_restart.1 oddPairing readable whole, identified, ok,
    anew, pairing_survives_restart.2 jan box 1 2 (firstStart box) forgiving _ identified rfl rfl ok
      anew
      rfl⟩

/-- Without anything that identifies the device the second start takes the first one's pairing
for another device's, has it removed and pairs once more. -/
theorem pairing_lost_without_address :
    (firstStart {}).pairStore.writable = true ∧ (firstStart {}).login.1 = .ok () ∧
    (firstStart {}).PairsAnew ∧
    (fresh (.ofSettings jan {} 2) forgiving
      (firstStart {}).login.2.pairStore).login.2.exchanges.map (·.request.endpoint) =
        [.deletePairing, .createPairing, .deviceLogin] := by
  decide +kernel

end Client

end PvrBackend
