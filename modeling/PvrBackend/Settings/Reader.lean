import PvrBackend.Json.Printer
import PvrBackend.Json.Reader
import PvrBackend.Settings.Basic

/-!
# Reading and writing settings

One table of fields serves both directions. Settings are written as an object
with one field a line, in the order of the table. They are read from an object,
where fields may be missing and unknown ones are ignored, but none of the known
ones may stand twice, or from an array that gives the fields in order.

An ignored member has to be well-formed only: it may hold numbers too large to
be read, half of a surrogate pair, or any nesting.
-/

namespace PvrBackend.Settings

open Json (Document)

def text? : Document → Option String
  | .string s => s
  | _ => none

def flag? : Document → Option Bool
  | .bool b => some b
  | _ => none

def count? (bound : Nat) : Document → Option Nat
  | .number n =>
    match n.number? with
    | some (.int (.ofNat k)) => if k ≤ bound then some k else none
    | _ => none
  | _ => none

/-- One of several names, alone or as the only key of an object with `null`. -/
def choice? {α : Type} (all : List α) (name : α → String) (d : Document) : Option α :=
  match d with
  | .string (some s) => all.find? (fun a => name a == s)
  | .object [(some s, .null)] => all.find? (fun a => name a == s)
  | _ => none

/-- A field: its name, how it is read into the settings, and its written value. -/
structure Field where
  name : String
  read : Settings → Document → Option Settings
  write : Settings → Json

namespace Field

def text (name : String) (get : Settings → String) (set : Settings → String → Settings) :
    Field :=
  ⟨name, fun s d => (text? d).map (set s), fun s => .string (get s)⟩

def flag (name : String) (get : Settings → Bool) (set : Settings → Bool → Settings) : Field :=
  ⟨name, fun s d => (flag? d).map (set s), fun s => .bool (get s)⟩

/-- A field that holds a whole number below 2⁶⁴. -/
def count64 (name : String) (get : Settings → UInt64) (set : Settings → UInt64 → Settings) :
    Field :=
  ⟨name, fun s d => (count? (UInt64.size - 1) d).map (fun n => set s (UInt64.ofNat n)),
    fun s => .int (get s).toNat⟩

/-- A field that holds a whole number below 2³². -/
def count32 (name : String) (get : Settings → UInt32) (set : Settings → UInt32 → Settings) :
    Field :=
  ⟨name, fun s d => (count? (UInt32.size - 1) d).map (fun n => set s (UInt32.ofNat n)),
    fun s => .int (get s).toNat⟩

/-- A field that holds one of several names. -/
def choice {α : Type} (name : String) (all : List α) (label : α → String) (get : Settings → α)
    (set : Settings → α → Settings) : Field :=
  ⟨name, fun s d => (choice? all label d).map (set s), fun s => .string (label (get s))⟩

end Field

/-- The fields in their written order. -/
def fields : List Field := [
  .choice "service_provider" Provider.all Provider.name (·.provider)
    (fun s v => { s with provider := v }),
  .text "user_name" (·.userName) (fun s v => { s with userName := v }),
  .text "password" (·.password) (fun s v => { s with password := v }),
  .text "device_id" (·.deviceId) (fun s v => { s with deviceId := v }),
  .text "product_id" (·.productId) (fun s v => { s with productId := v }),
  .choice "stream_quality" Quality.all Quality.name (·.quality)
    (fun s v => { s with quality := v }),
  .count64 "full_channel_epg_refresh_hours" (·.fullRefreshHours)
    (fun s v => { s with fullRefreshHours := v }),
  .count64 "loadings_refresh_secs" (·.recordingsRefreshSecs)
    (fun s v => { s with recordingsRefreshSecs := v }),
  .count64 "keep_alive_delay_secs" (·.keepAliveSecs) (fun s v => { s with keepAliveSecs := v }),
  .count64 "epg_check_delay_mins" (·.guideCheckMins) (fun s v => { s with guideCheckMins := v }),
  .count64 "login_retry_secs" (·.loginRetrySecs) (fun s v => { s with loginRetrySecs := v }),
  .count64 "poll_interval_ms" (·.pollMillis) (fun s v => { s with pollMillis := v }),
  .flag "use_h265" (·.useH265) (fun s v => { s with useH265 := v }),
  .flag "use_adaptive" (·.useAdaptive) (fun s v => { s with useAdaptive := v }),
  .flag "show_locked_channels" (·.showLocked) (fun s v => { s with showLocked := v }),
  .flag "show_locked_only_pin" (·.showLockedOnlyPin)
    (fun s v => { s with showLockedOnlyPin := v }),
  .count32 "epg_max_future_days" (·.futureDays) (fun s v => { s with futureDays := v }),
  .count32 "epg_max_past_days" (·.pastDays) (fun s v => { s with pastDays := v }),
  .text "user_agent" (·.userAgent) (fun s v => { s with userAgent := v })]

/-- Read members into settings; `pending` holds the fields that were not read yet,
so a field that stands twice is found among the known names only. -/
def readMembers (pending : List Field) (s : Settings) :
    List (Option String × Document) → Option Settings
  | [] => some s
  | (key, d) :: members => do
    let key ← key
    match pending.find? (fun f => f.name == key) with
    | some f =>
      let s ← f.read s d
      readMembers (pending.filter (fun g => g.name != key)) s members
    | none =>
      if fields.any (fun f => f.name == key) then none else readMembers pending s members

/-- Read items into the fields in order; there may be fewer items than fields. -/
def readItems (s : Settings) : List Field → List Document → Option Settings
  | _, [] => some s
  | [], _ :: _ => none
  | f :: rest, d :: items => do
    let s ← f.read s d
    readItems s rest items

def ofDocument? : Document → Option Settings
  | .object members => readMembers fields {} members
  | .array items => readItems {} fields items
  | _ => none

def read (text : String) : Option Settings := (Document.read text).bind ofDocument?

def members (s : Settings) : List (String × Json) := fields.map (fun f => (f.name, f.write s))

/-- The text of settings, one field a line. -/
def render (s : Settings) : String := Json.renderLines s.members

/-- Settings from the bytes of the settings file; without a file, or when it
cannot be used, the standard ones. -/
def load (file : Option ByteArray) : Settings :=
  ((file.bind String.fromUTF8?).bind read).getD {}

end PvrBackend.Settings
