import PlanService.Proofs.Client.Submission
import PlanService.Proofs.Http.Naming

/-! # Finding an entry by its name

A client puts the name of a plan or a device into the address as it is, and the server looks up what the
name means there (`Http.Url.meaning`).  So an entry is found by its name, and a name that does not occur is
reported as not found, if the name is intact; and no other name is given an entry that is called so
(`finds_intact_names`).

Plans and devices are asked for alike, in different places: each is a `Shelf` of the catalog.
-/

namespace PlanService

open Http (Request)

namespace Api

/-! ## Places in a path -/

/-- The path that a server sees of an address whose pieces have no query in them. -/
theorem path_target {url : Http.Url} (uncut : ∀ piece ∈ url.pieces, ∀ c ∈ piece, c ≠ '?' ∧ c ≠ '#') :
    Route.path url.target = '/' :: Text.join '/' url.pieces := by
  have goesOn : ∀ c ∈ '/' :: Text.join '/' url.pieces, decide (c ≠ '?' ∧ c ≠ '#') = true := by
    intro c member
    refine decide_eq_true ?_
    rcases List.mem_cons.mp member with rfl | member
    · decide
    rcases Text.mem_of_mem_join member with rfl | ⟨piece, isPiece, member⟩
    · decide
    · exact uncut piece isPiece c member
  have path : (url.target.toList.takeWhile fun c => decide (c ≠ '?' ∧ c ≠ '#')) = '/' :: Text.join '/' url.pieces := by
    rw [Http.Url.target, String.toList_ofList, ← List.cons_append, List.takeWhile_append_of_pos goesOn]
    cases url.query with
    | none => rw [List.takeWhile_nil, List.append_nil]
    | some query => rw [List.takeWhile_cons_of_neg (by decide), List.append_nil]
  rw [Route.path, path]
  rfl

/-- What is asked for below a place where entries are found by name. -/
def Route.below (route : List Char → Route) : List (List Char) → Option Route
  | [piece] => if piece = [] then none else some (route piece)
  | _ => none

theorem split_path {pieces : List (List Char)} (some : pieces ≠ []) (noSlash : ∀ piece ∈ pieces, '/' ∉ piece) :
    Text.split '/' ('/' :: Text.join '/' pieces) = [] :: pieces := by
  rw [Text.split, if_pos rfl, Text.split_join some noSlash]

/-- Below the plans and below the devices there are only their names. -/
theorem ofPath_below {front : List Char} {route : List Char → Route}
    (known : (front = "plans".toList ∧ route = .plan) ∨ (front = "devices".toList ∧ route = .device))
    {pieces : List (List Char)} (some : pieces ≠ []) (noSlash : ∀ piece ∈ pieces, '/' ∉ piece) :
    Route.ofPath ('/' :: Text.join '/' (front :: pieces)) = Route.below route pieces := by
  have uncut : ∀ piece ∈ front :: pieces, '/' ∉ piece := by
    refine List.forall_mem_cons.mpr ⟨?_, noSlash⟩
    rcases known with ⟨rfl, -⟩ | ⟨rfl, -⟩ <;> decide
  rw [Route.ofPath, split_path (List.cons_ne_nil _ _) uncut]
  rcases known with ⟨rfl, rfl⟩ | ⟨rfl, rfl⟩ <;> rcases pieces with _ | ⟨piece, _ | ⟨second, more⟩⟩ <;>
    first | exact absurd rfl some | simp [Route.below]

/-! ## Serving -/

/-- What is said of a part of a path whose bytes are no text. -/
def garbled (part : String) : String := s!"Invalid URL: Invalid UTF-8 in `{part}`"

theorem readName_eq (part : String) (raw : List Char) :
    readName part raw = (Http.PercentCoding.decodeText raw).elim (.error (plain 400 (garbled part))) .ok := by
  rw [readName]
  cases Http.PercentCoding.decodeText raw <;> rfl

variable {σ : Type} [Engine σ] (catalog : Catalog) (now : Millis) (worker : Worker σ) (request : Request)

theorem serve_nowhere (goes : Route.ofPath (Route.path request.target) = none) (shown : request.method ≠ .head) :
    serve catalog now worker request = (.response (noRoute.withHeader versionHeader version), worker) := by
  rw [serve, goes]
  simp only [if_neg shown]
  rfl

theorem serve_route {route : Route} (goes : Route.ofPath (Route.path request.target) = some route)
    (known : route.methods.contains request.method = true) (shown : request.method ≠ .head) :
    serve catalog now worker request =
      ((answerRoute catalog now worker request route).1.withHeader versionHeader version,
        (answerRoute catalog now worker request route).2) := by
  rw [serve, goes]
  simp only [known, if_true, if_neg shown]

end Api

namespace Client

variable {σ : Type} [Engine σ] {α : Type} {client : Client} {hosted : Hosted σ}

/-- Whatever the address of a call is, if it is at the server the call comes to what the server says. -/
theorem perform_serve (reaches : client.Reaches hosted) (call : Call α) {url : Http.Url}
    (address : client.url? call.path = some url) (host : url.host = hosted.host) (port : url.port = hosted.port) :
    let served := Api.serve hosted.session.catalog hosted.session.clock hosted.session.worker (call.request url)
    client.perform call hosted = (call.read served.1.head, hosted.withWorker served.2) := by
  intro served
  have up := reaches.up
  have answered : hosted.session.request (call.request url) =
      (served.1, { hosted.session with worker := served.2 }) := rfl
  rw [perform, send, address]
  simp only [Network.send, up, host, port, and_self, if_true, answered]
  cases served.1 <;> simp [Api.Answer.head, Hosted.withWorker, Except.bind, up]

/-! ## Reading answers -/

theorem readSuccess_nowhere (decoder : Json.Decoder α) :
    readSuccess decoder id (Api.noRoute.withHeader Api.versionHeader Api.version) = .error (.notFound "") := by
  have detail : refusalDetail Api.noRoute = "" := by decide +kernel
  rw [readSuccess_withHeader]
  simp only [readSuccess, check, refusalError, detail]
  rfl

theorem readSuccess_garbled (decoder : Json.Decoder α) :
    readSuccess decoder id (Api.plain 400 (Api.garbled "name")) = .error (.status 400 (Api.garbled "name")) := by
  have detail : refusalDetail (Api.plain 400 (Api.garbled "name")) = Api.garbled "name" := by decide +kernel
  simp only [readSuccess, check, refusalError, detail]
  rfl

theorem readSuccess_item {decoder : Json.Decoder α} {toJson : α → Json} (integral : ∀ a, (toJson a).Integral)
    (reads : ∀ a, decoder Json.depthLimit (toJson a).draft = .ok a) (item : Option α) :
    readSuccess decoder id (Api.answerItem toJson item) =
      item.elim (.error (.notFound "Item not found")) .ok := by
  cases item with
  -- The answer is the one to a command that does not find its task.
  | none => exact readSuccess_refusal decoder id (.notFound default)
  | some a => exact readSuccess_json rfl (integral a) (reads a)

end Client

/-! ## Entries by name -/

theorem Plan.integral_toJson (plan : Plan) : plan.toJson.Integral := by
  obtain ⟨name, _ | description⟩ := plan
  all_goals
    refine .object ?_
    simp [Json.Integral.string]

theorem Device.integral_toJson (device : Device) : device.toJson.Integral := by
  refine .object ?_
  simp only [List.forall_mem_cons]
  exact ⟨.string _, Json.integral_ofStrings _, nofun⟩

theorem Catalog.name_of_plan? {catalog : Catalog} {name : String} {plan : Plan}
    (found : catalog.plan? name = some plan) : plan.name = name := by
  have named := List.find?_some (show catalog.plans.find? (·.name == name) = some plan from found)
  exact beq_iff_eq.mp named

theorem Catalog.name_of_device? {catalog : Catalog} {name : String} {device : Device}
    (found : catalog.device? name = some device) : device.name = name := by
  have named := List.find?_some (show catalog.devices.find? (·.name == name) = some device from found)
  exact beq_iff_eq.mp named

namespace Client

open Http.Url (Meaning meaning Straight Intact)

/-- What a client is told that asks for an entry by name. -/
def told {α : Type} (find? : String → Option α) : Meaning → Except ClientError α
  | .nowhere => .error (.notFound "")
  | .garbled => .error (.status 400 (Api.garbled "name"))
  | .name meant => (find? meant).elim (.error (.notFound "Item not found")) .ok

/-- A part of the catalog whose entries are asked for by name: where this is done, how the entries are found, and
how they are written and read. -/
structure Shelf (α : Type) where
  front : List Char
  route : List Char → Api.Route
  find? : Catalog → String → Option α
  toJson : α → Json
  decoder : Json.Decoder α
  known : (front = "plans".toList ∧ route = .plan) ∨ (front = "devices".toList ∧ route = .device)
  answers {σ : Type} [Engine σ] (catalog : Catalog) (now : Millis) (worker : Worker σ) (request : Request)
    (raw : List Char) :
    Api.answerRoute catalog now worker request (route raw) =
      Api.whenRead (Api.readName "name" raw) worker fun name =>
        (.response (Api.answerItem toJson (find? catalog name)), worker)
  integral (a : α) : (toJson a).Integral
  reads (a : α) : decoder Json.depthLimit (toJson a).draft = .ok a

namespace Shelf

def plans : Shelf Plan where
  front := "plans".toList
  route := .plan
  find? := Catalog.plan?
  toJson := Plan.toJson
  decoder := Plan.decoder
  known := .inl ⟨rfl, rfl⟩
  answers _ _ _ _ _ := rfl
  integral := Plan.integral_toJson
  reads plan := plan.decoder_draft 126

def devices : Shelf Device where
  front := "devices".toList
  route := .device
  find? := Catalog.device?
  toJson := Device.toJson
  decoder := Device.decoder
  known := .inr ⟨rfl, rfl⟩
  answers _ _ _ _ _ := rfl
  integral := Device.integral_toJson
  reads device := device.decoder_draft 125

variable {α : Type} (shelf : Shelf α)

/-- The call for an entry of this name. -/
def call (name : String) : Call α where
  method := .get
  path := String.ofList ('/' :: (shelf.front ++ '/' :: name.toList))
  read := readSuccess shelf.decoder id

theorem plain : ∀ c ∈ shelf.front, Http.isPlain c = true := by
  refine List.all_eq_true.mp ?_
  rcases shelf.known with ⟨front, -⟩ | ⟨front, -⟩ <;> (rw [front]; decide)

theorem gettable (raw : List Char) : (shelf.route raw).methods.contains .get = true := by
  rcases shelf.known with ⟨-, route⟩ | ⟨-, route⟩ <;> (rw [route]; rfl)

/-- Where the call for a name goes. -/
def address (host : String) (port : Nat) (name : String) : Http.Url where
  host
  port
  pieces := Http.Url.resolve [shelf.front] (Http.Url.namePieces name.toList)
  query := Http.Url.readQuery ('/' :: (shelf.front ++ '/' :: Http.Url.tidy name.toList))

theorem url?_call {σ : Type} {client : Client} {hosted : Hosted σ} (reaches : client.Reaches hosted) (name : String) :
    client.url? (shelf.call name).path = some (shelf.address hosted.host hosted.port name) := by
  obtain ⟨-, authority, address, isAuthority, server⟩ := reaches
  have solid : ∀ c ∈ shelf.front ++ ['/'], 32 < c.toNat :=
    List.forall_mem_append.mpr ⟨fun c member => Http.gt_blank_of_isPlain (shelf.plain c member), by simp⟩
  have tidied : Http.Url.tidy (shelf.front ++ '/' :: name.toList) =
      shelf.front ++ '/' :: Http.Url.tidy name.toList := by
    rw [List.append_cons, Http.Url.tidy_append solid, ← List.append_cons]
  rw [url?, address, call, ← String.ofList_append, Http.Url.parse_below isAuthority server, tidied,
    Http.Url.readPath_named shelf.plain]
  rfl

/-- What the server makes of encoded pieces below the place of the shelf. -/
theorem ofPath_target {url : Http.Url} (pieces : List (List Char))
    (leads : url.pieces = shelf.front :: pieces.map (Http.Url.encodeText Http.Url.isPathSafe)) (some : pieces ≠ [])
    (noSlash : ∀ piece ∈ pieces, '/' ∉ piece) :
    Api.Route.ofPath (Api.Route.path url.target) =
      Api.Route.below shelf.route (pieces.map (Http.Url.encodeText Http.Url.isPathSafe)) := by
  have safe {c other : Char} {piece : List Char} (member : c ∈ Http.Url.encodeText Http.Url.isPathSafe piece)
      (special : Http.Url.isPathSafe other.toNat.toUInt8 = false) : c ≠ other := by
    rintro rfl
    rw [Http.Url.isPathSafe_of_mem_encodeText member] at special
    cases special
  have uncut : ∀ piece ∈ url.pieces, ∀ c ∈ piece, c ≠ '?' ∧ c ≠ '#' := by
    rw [leads]
    refine List.forall_mem_cons.mpr ⟨fun c member => ?_, List.forall_mem_map.mpr fun piece _ c member => ?_⟩
    · exact ⟨Http.ne_of_isPlain (shelf.plain c member) rfl, Http.ne_of_isPlain (shelf.plain c member) rfl⟩
    · exact ⟨safe member (by decide), safe member (by decide)⟩
  rw [Api.path_target uncut, leads]
  exact Api.ofPath_below shelf.known (List.map_eq_nil_iff.not.mpr some)
    (List.forall_mem_map.mpr fun piece isPiece member =>
      noSlash piece isPiece (Http.Url.slash_mem_of_encodeText member))

/-- The address for a straight name has the route for what the name is encoded as, or no route if the name
is nowhere. -/
theorem ofPath_address (host : String) (port : Nat) {name : String} (straight : Straight name.toList) :
    (∃ piece, Api.Route.ofPath (Api.Route.path (shelf.address host port name).target) =
        some (shelf.route (Http.Url.encodeText Http.Url.isPathSafe piece)) ∧
      meaning name.toList = (Http.PercentCoding.decodeText piece).elim .garbled .name) ∨
    (Api.Route.ofPath (Api.Route.path (shelf.address host port name).target) = none ∧
      meaning name.toList = .nowhere) := by
  rcases Http.Url.resolve_named shelf.plain straight with
    ⟨piece, nonempty, noSlash, leads, means⟩ | ⟨means, leads | leads | ⟨first, second, more, pieces, leads⟩⟩
  · refine .inl ⟨piece, ?_, means⟩
    have encoded : Http.Url.encodeText Http.Url.isPathSafe piece ≠ [] := fun none =>
      nonempty (Http.Url.encodeText_eq_nil none)
    rw [shelf.ofPath_target [piece] leads (List.cons_ne_nil _ _) (by simpa using noSlash)]
    exact if_neg encoded
  · refine .inr ⟨?_, means⟩
    rw [shelf.ofPath_target [[]] leads (List.cons_ne_nil _ _) (by simp)]
    rfl
  · refine .inr ⟨?_, means⟩
    have root : Api.Route.ofPath ['/'] = none := by decide
    rw [Api.path_target (by simp [address, leads]), address, leads]
    exact root
  · refine .inr ⟨?_, means⟩
    rw [shelf.ofPath_target _ leads (by simp [pieces]) fun piece => Http.Url.slash_not_mem_of_mem_namePieces, pieces]
    rfl

variable {σ : Type} [Engine σ] {client : Client} {hosted : Hosted σ}

/-- The call for a straight name comes to what the name means. -/
theorem perform_call (reaches : client.Reaches hosted) {name : String} (straight : Straight name.toList) :
    client.perform (shelf.call name) hosted =
      (told (shelf.find? hosted.session.catalog) (meaning name.toList), hosted) := by
  let request := (shelf.call name).request (shelf.address hosted.host hosted.port name)
  rw [perform_serve reaches (shelf.call name) (shelf.url?_call reaches name) rfl rfl]
  rcases shelf.ofPath_address hosted.host hosted.port straight with ⟨piece, goes, means⟩ | ⟨goes, means⟩
  · rw [Api.serve_route _ _ _ request goes (shelf.gettable _) nofun, shelf.answers, Api.readName_eq,
      Http.Url.decodeText_encodeText, means]
    cases Http.PercentCoding.decodeText piece with
    | none =>
      simp only [Option.elim_none, Api.whenRead, Api.Answer.withHeader, Api.Answer.head, told]
      exact congrArg (·, hosted) ((readSuccess_withHeader ..).trans (readSuccess_garbled shelf.decoder))
    | some meant => exact congrArg (·, hosted) (readSuccess_item shelf.integral shelf.reads (shelf.find? _ meant))
  · rw [Api.serve_nowhere _ _ _ request goes nofun, means]
    exact congrArg (·, hosted) (readSuccess_nowhere shelf.decoder)

theorem call_plans (name : String) : plans.call name = plan name := by
  have path : String.ofList ('/' :: ("plans".toList ++ '/' :: name.toList)) = s!"/plans/{name}" := by
    have pieces : ("/plans/" ++ name).toList = "/plans/".toList ++ name.toList := String.toList_append
    exact String.toList_inj.mp (String.toList_ofList.trans pieces.symm)
  exact congrArg (fun path => ({ method := .get, path, read := _ } : Call Plan)) path

theorem call_devices (name : String) : devices.call name = device name := by
  have path : String.ofList ('/' :: ("devices".toList ++ '/' :: name.toList)) = s!"/devices/{name}" := by
    have pieces : ("/devices/" ++ name).toList = "/devices/".toList ++ name.toList := String.toList_append
    exact String.toList_inj.mp (String.toList_ofList.trans pieces.symm)
  exact congrArg (fun path => ({ method := .get, path, read := _ } : Call Device)) path

end Shelf

/-- What was found has the name that was meant. -/
theorem meaning_of_told {α : Type} {find? : String → Option α} {named : α → String}
    (finds : ∀ {name a}, find? name = some a → named a = name) {means : Meaning} {a : α}
    (found : told find? means = .ok a) : means = .name (named a) := by
  cases means with
  | nowhere | garbled => cases found
  | name meant =>
    rw [told] at found
    cases looked : find? meant with
    | none =>
      rw [looked] at found
      cases found
    | some b =>
      rw [looked] at found
      cases found
      rw [finds looked]

/-- A client is told of a straight name what the catalog has for its meaning.  By an intact name every entry that
is called so is found, the first of them in the catalog, and if there is none it is reported as not found; by a
straight name that is not intact no entry that is called so is found. -/
theorem finds_intact_names {σ : Type} [Engine σ] (client : Client) (hosted : Hosted σ) (name : String) :
    let catalog := hosted.session.catalog
    client.Reaches hosted →
    (Straight name.toList →
      client.perform (plan name) hosted = (told catalog.plan? (meaning name.toList), hosted) ∧
      client.perform (device name) hosted = (told catalog.device? (meaning name.toList), hosted)) ∧
    (Intact name.toList →
      client.perform (plan name) hosted =
        ((catalog.plan? name).elim (.error (.notFound "Item not found")) .ok, hosted) ∧
      client.perform (device name) hosted =
        ((catalog.device? name).elim (.error (.notFound "Item not found")) .ok, hosted)) ∧
    (Straight name.toList → ¬ Intact name.toList →
      (∀ entry : Plan, entry.name = name → (client.perform (plan name) hosted).1 ≠ .ok entry) ∧
      ∀ entry : Device, entry.name = name → (client.perform (device name) hosted).1 ≠ .ok entry) := by
  intro catalog reaches
  have forPlans (straight : Straight name.toList) :
      client.perform (plan name) hosted = (told catalog.plan? (meaning name.toList), hosted) := by
    rw [← Shelf.call_plans]
    exact Shelf.plans.perform_call reaches straight
  have forDevices (straight : Straight name.toList) :
      client.perform (device name) hosted = (told catalog.device? (meaning name.toList), hosted) := by
    rw [← Shelf.call_devices]
    exact Shelf.devices.perform_call reaches straight
  have itself : meaning name.toList = .name name ↔ Intact name.toList := by
    rw [← Http.Url.meaning_eq_self_iff, String.ofList_toList]
  refine ⟨fun straight => ⟨forPlans straight, forDevices straight⟩, fun intact => ?_, fun straight changed => ?_⟩
  · have means := itself.mpr intact
    rw [forPlans intact.isStraight, forDevices intact.isStraight, means]
    exact ⟨rfl, rfl⟩
  · rw [forPlans straight, forDevices straight]
    refine ⟨fun entry called found => changed (itself.mp ?_), fun entry called found => changed (itself.mp ?_)⟩
    · rw [meaning_of_told Catalog.name_of_plan? found, called]
    · rw [meaning_of_told Catalog.name_of_device? found, called]

/-- A name with a blank, a `%` and a character outside of ASCII is found, and one with a `?` in it is not. -/
theorem finds_name_with_percent :
    let client := ofUrl "http://127.0.0.1:8000/"
    let catalog : Catalog :=
      { plans := [⟨"scan", none⟩, ⟨"100 % é", some "first"⟩, ⟨"100 % é", none⟩, ⟨"scan?fast", none⟩] }
    let hosted : Hosted Recording :=
      { host := "127.0.0.1", port := 8000, session := .start {} [] { capacity := 16 } catalog }
    client.perform (plan "100 % é") hosted = (.ok ⟨"100 % é", some "first"⟩, hosted) ∧
      client.perform (device "100 % é") hosted = (.error (.notFound "Item not found"), hosted) ∧
      (client.perform (plan "scan?fast") hosted).1 ≠ .ok ⟨"scan?fast", none⟩ := by
  intro client catalog hosted
  have intact : Intact "100 % é".toList :=
    ⟨by decide, by simp, by decide, by decide, by decide +kernel⟩
  have cut : ¬ Intact "scan?fast".toList := fun intact => absurd (intact.whole '?' (by decide)) (by decide)
  have reaches : client.Reaches hosted := reaches_local hosted.session
  obtain ⟨-, found, -⟩ := finds_intact_names client hosted "100 % é" reaches
  obtain ⟨-, -, notFound⟩ := finds_intact_names client hosted "scan?fast" reaches
  exact ⟨(found intact).1, (found intact).2, (notFound (by decide) cut).1 _ rfl⟩

/-- The plan that is found is the one that is named before the `?`. -/
theorem finds_other_plan :
    let client := ofUrl "http://127.0.0.1:8000/"
    let catalog : Catalog := { plans := [⟨"scan", none⟩, ⟨"scan?fast", none⟩] }
    let hosted : Hosted Recording :=
      { host := "127.0.0.1", port := 8000, session := .start {} [] { capacity := 16 } catalog }
    client.Reaches hosted ∧ catalog.plan? "scan?fast" = some ⟨"scan?fast", none⟩ ∧
      client.perform (plan "scan?fast") hosted = (.ok ⟨"scan", none⟩, hosted) := by
  intro client catalog hosted
  have reaches : client.Reaches hosted := reaches_local hosted.session
  have straight : Straight "scan?fast".toList := by decide
  have means : meaning "scan?fast".toList = .name "scan" := by decide +kernel
  have performed := Shelf.plans.perform_call reaches straight
  rw [Shelf.call_plans, means] at performed
  exact ⟨reaches, by decide, performed⟩

end Client

end PlanService
