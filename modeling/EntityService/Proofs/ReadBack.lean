import EntityService.Proofs.Lookup

/-!
# What has been created can be read

A row that has been created is found under the text of its key, however the text is encoded.

## Main definitions

* `IsKey` — a value is a key of a type
* `Request.rowAt` — the request for a row, after the one that has created it

## Main results

* `IsKey.readKey_plainText` — the text of a key denotes the key
* `orderOf_rowAt` — a segment leads to the row that it spells the key of
* `of_created` — what a request does that is answered as created
* `created_row_can_be_read` — a row that has been created is given when it is asked for by its key
* `label_cannot_be_read` — a key that is a word of its own, and one with another spelling

## Design notes

A key goes two ways: it is stored as it stands in a body, and it is read from a segment of a path by
its type.  The two meet where a value has one spelling only.  Integers have one because they are
stored as numbers, texts because they are not changed on either way.  Identifiers have many, and the
one that is looked up is always the same.
-/

namespace EntityService

open EntityService.Http EntityService.Json EntityService.Model EntityService.Number
open EntityService.Query EntityService.Store EntityService.Validation

/-! ### Identifiers -/

namespace Uuid

/-- A hexadecimal digit in lower case is one, and not the letter of a NaN. -/
theorem toLower_of_isHexDigit {c : Char} (h : isHexDigit c) :
    isHexDigit c.toLower ∧ c.toLower ≠ 'n' := by
  have hascii : ∀ n < 0x80, isHexDigit (Char.ofNat n) →
      isHexDigit (Char.ofNat n).toLower ∧ (Char.ofNat n).toLower ≠ 'n' := by
    decide +kernel
  have hbound : c.toNat < 0x80 := by
    simp only [isHexDigit, Bool.or_eq_true, Bool.and_eq_true, decide_eq_true_eq, Char.le_def,
      UInt32.le_iff_toNat_le] at h
    change ((48 ≤ c.toNat ∧ c.toNat ≤ 57) ∨ 97 ≤ c.toNat ∧ c.toNat ≤ 102) ∨
      65 ≤ c.toNat ∧ c.toNat ≤ 70 at h
    omega
  rw [← Char.ofNat_toNat c] at h ⊢
  exact hascii _ hbound h

/-- The digits of an identifier that has been read. -/
theorem isHexDigit_of_read? {s : String} {u : Uuid} (h : read? s = some u) :
    ∀ c ∈ u.digits, isHexDigit c := by
  have hdigits : ∀ {cs}, ofDigits? cs = some u → ∀ c ∈ u.digits, isHexDigit c := by
    intro cs hcs c hc
    unfold ofDigits? at hcs
    split at hcs
    · next hall =>
      cases hcs
      obtain ⟨d, hd, rfl⟩ := List.mem_map.mp hc
      rw [Bool.and_eq_true] at hall
      exact (toLower_of_isHexDigit (List.all_eq_true.mp hall.2 d hd)).1
    · cases hcs
  have hgroups : ∀ {cs}, ofGroups? cs = some u → ∀ c ∈ u.digits, isHexDigit c := by
    intro cs hcs
    unfold ofGroups? at hcs
    dsimp only at hcs
    split at hcs
    · exact hdigits hcs
    · cases hcs
  unfold read? at h
  simp only [Option.orElse_eq_some] at h
  rcases h with h | ⟨-, h | ⟨-, h | ⟨-, h⟩⟩⟩
  · exact hdigits h
  · exact hgroups h
  · obtain ⟨cs, -, h⟩ := Option.bind_eq_some_iff.mp h
    exact hgroups h
  · obtain ⟨cs, -, h⟩ := Option.bind_eq_some_iff.mp h
    exact hgroups h

theorem mem_of_mem_text {u : Uuid} {c : Char} (h : c ∈ u.text.toList) : c = '-' ∨ c ∈ u.digits := by
  have hpart : ∀ start length, c ∈ (String.ofList ((u.digits.drop start).take length)).toList →
      c ∈ u.digits := by
    intro start length hc
    rw [String.toList_ofList] at hc
    exact List.mem_of_mem_drop (List.mem_of_mem_take hc)
  rcases Text.mem_of_mem_joined h with h | ⟨part, hmem, h⟩
  · exact .inl (List.mem_singleton.mp h)
  · right
    simp only [List.mem_cons, List.not_mem_nil, or_false] at hmem
    rcases hmem with rfl | rfl | rfl | rfl | rfl <;> exact hpart _ _ h

end Uuid

/-! ### Keys -/

/-- A value is a key of a type: an integer of 64 bits, an identifier in the spelling in which
identifiers are written, or a text that is not empty.  A text that spells a NaN is the same as
nothing, so it is no key. -/
def IsKey : KeyType → Value → Prop
  | .int, key | .bigInt, key =>
    ∃ n, key = .ofInt n ∧ Double.minInt64 ≤ n ∧ n ≤ Double.maxInt64
  | .uuid, key => ∃ u : Uuid, key = .string u.text ∧ Uuid.read? u.text = some u
  | .text, key => ∃ s, key = .string s ∧ s ≠ "" ∧ ∀ x ∈ numberOf? key, x.isNaN = false

namespace IsKey

variable {type : KeyType} {key : Value}

theorem not_null (h : IsKey type key) : key.isNull = false := by
  cases type with
  | int | bigInt =>
      obtain ⟨n, rfl, -, -⟩ := h
      rfl
  | uuid =>
      obtain ⟨u, rfl, -⟩ := h
      rfl
  | text =>
      obtain ⟨s, rfl, -, -⟩ := h
      rfl

/-- No key stands for a NaN: the text of an identifier lacks the letter of one. -/
theorem not_nan (h : IsKey type key) : ∀ x ∈ numberOf? key, x.isNaN = false := by
  intro x hx
  cases type with
  | int | bigInt =>
      obtain ⟨n, rfl, -, -⟩ := h
      obtain rfl := Option.some.inj hx
      exact Double.isNaN_ofInt n
  | uuid =>
      obtain ⟨u, rfl, hread⟩ := h
      by_contra hnan
      obtain ⟨c, hc, hlower⟩ := exists_mem_of_isNaN hx (Bool.eq_true_of_not_eq_false hnan)
      rcases Uuid.mem_of_mem_text hc with rfl | hdigit
      · exact absurd hlower (by decide)
      · exact (Uuid.toLower_of_isHexDigit (Uuid.isHexDigit_of_read? hread c hdigit)).2 hlower
  | text =>
      obtain ⟨s, rfl, -, hnumber⟩ := h
      exact hnumber x hx

/-- A key is the same as itself. -/
theorem same (h : IsKey type key) : sameCell key key := sameCell_self h.not_null h.not_nan

/-- The text of a key denotes the key. -/
theorem readKey_plainText (h : IsKey type key) : readKey type key.plainText = .ok key := by
  cases type with
  | int | bigInt =>
      obtain ⟨n, rfl, hmin, hmax⟩ := h
      have hread : readInteger64? (Text.trim (Value.ofInt n).plainText) = some n := by
        change readInteger64? (Text.trim (toString n)) = some n
        rw [Text.trim_of_not_blank (not_blank_toString n), readInteger64?_toString hmin hmax]
      unfold readKey
      dsimp only
      rw [hread]
  | uuid =>
      obtain ⟨u, rfl, hread⟩ := h
      unfold readKey
      dsimp only [Value.plainText]
      rw [hread]
  | text =>
      obtain ⟨s, rfl, -, -⟩ := h
      rfl

/-- The text of a key is not empty. -/
theorem plainText_ne (h : IsKey type key) : key.plainText ≠ "" := by
  intro hempty
  have hread := h.readKey_plainText
  rw [hempty] at hread
  cases type with
  | text =>
      obtain ⟨s, rfl, hs, -⟩ := h
      exact hs hempty
  | _ => cases hread

end IsKey

/-! ### Requests for rows -/

namespace Http

theorem Route.of_of?_rows {segments : List String} {raw : String}
    (h : Route.of? segments = some (.rows raw)) : raw ≠ "" ∧ segments = ["", "api", "v1", raw] := by
  unfold Route.of? at h
  split at h
  · cases h
  · cases h
  · cases h
  · split at h
    · cases h
    · next hraw =>
      cases h
      exact ⟨hraw, rfl⟩
  · split_ifs at h <;> cases h
  · cases h

/-- What leads to the rows of an entity is a path of four segments, the last of which is a text. -/
theorem of_decoded?_rows {segments : List String} {segment : String}
    (h : (Route.of? segments).bind Route.decoded? = some (.rows segment)) :
    ∃ raw ≠ "", segments = ["", "api", "v1", raw] ∧ segmentText? raw = some segment := by
  obtain ⟨route, hroute, hdecoded⟩ := Option.bind_eq_some_iff.mp h
  cases route with
  | rows raw =>
      obtain ⟨hraw, rfl⟩ := Route.of_of?_rows hroute
      obtain ⟨text, htext, heq⟩ := Option.map_eq_some_iff.mp hdecoded
      cases heq
      exact ⟨raw, hraw, rfl, htext⟩
  | bulk raw =>
      obtain ⟨_, -, heq⟩ := Option.map_eq_some_iff.mp hdecoded
      cases heq
  | row raw key =>
      obtain ⟨_, -, hdecoded⟩ := Option.bind_eq_some_iff.mp hdecoded
      obtain ⟨_, -, heq⟩ := Option.bind_eq_some_iff.mp hdecoded
      cases heq
  | _ => cases hdecoded

/-- Every text is the text of a segment that is not the word for many new rows. -/
theorem exists_segment (s : String) : ∃ segment ≠ "bulk", segmentText? segment = some s := by
  refine ⟨encodedText s, fun hbulk => ?_, segmentText?_encodedText s⟩
  have htext := segmentText?_encodedText s
  rw [hbulk] at htext
  have hplain : segmentText? "bulk" = some "bulk" := by decide
  obtain rfl : "bulk" = s := Option.some.inj (hplain.symm.trans htext)
  exact absurd hbulk (by decide)

/-- The request for the row whose key is spelled by a segment, one of the rows that a request leads
to. -/
def Request.rowAt (r : Request) (segment : String) : Request :=
  ⟨"GET", ⟨r.target.segments ++ [segment], ""⟩, none, ""⟩

/-- It leads to the row, unless the segment is the word for many new rows. -/
theorem orderOf_rowAt {r : Request} {segment raw key : String}
    (hroute : (Route.of? r.target.segments).bind Route.decoded? = some (.rows segment))
    (hkey : segmentText? raw = some key) (hempty : key ≠ "") (hbulk : raw ≠ "bulk")
    (service : Service) :
    service.orderOf (r.rowAt raw) = .entity (.read segment key .empty) := by
  obtain ⟨rawSegment, hne, hsegments, hsegment⟩ := of_decoded?_rows hroute
  have hraw : raw ≠ "" := by
    rintro rfl
    cases hkey
    exact hempty rfl
  have hroute : Route.of? (r.rowAt raw).target.segments = some (.row rawSegment raw) := by
    rw [Request.rowAt, hsegments]
    change (if (rawSegment = "" || raw = "") = true then none
      else if raw = "bulk" then some (Route.bulk rawSegment)
      else some (Route.row rawSegment raw)) = _
    rw [if_neg (by simp [hne, hraw]), if_neg hbulk]
  have hrow : (Route.of? (r.rowAt raw).target.segments).bind Route.decoded? =
      some (.row segment key) := by
    rw [hroute, Option.bind_some, Route.decoded?, hsegment, hkey]
    rfl
  have hready : Route.row segment key ≠ .ready := by simp
  rw [orderOf_of_route hrow rfl hready]
  rfl

end Http

/-! ### What has been created -/

section Created

variable {m : Model} {e : Entity}

/-- A command for a new row that succeeds adds the row that it answers with. -/
theorem of_createRow {segment : String} {body : Value} {store : Memory} {response : Response}
    (he : m.entityAt? segment = some e)
    (h : (createRow m segment body store).1 = .ok response) :
    ∃ data, (createRow m segment body store).2 = (store.insertRow e data).2 ∧
      response = .one 201 (shownRow e (.object (store.insertRow e data).1)) := by
  have hentity := entityFor_apply m segment "create" store
  simp only [he] at hentity
  by_cases hallowed : e.allows "create"
  · cases body with
    | object data =>
        have hcreated := inSession_create (Repository.of m e) data store
        rw [createRow_apply he hallowed, Action.mapValue, hcreated] at h ⊢
        cases hviolation : violation? (Repository.of m e).entity data .create with
        | some violation =>
            rw [hviolation] at h
            cases h
        | none =>
            rw [hviolation] at h
            exact ⟨data, rfl, (Except.ok.inj h).symm⟩
    | _ =>
        rw [if_pos hallowed] at hentity
        rw [createRow, Action.bind_apply_of_ok (congrArg Prod.fst hentity)] at h
        cases h
  · rw [if_neg hallowed] at hentity
    rw [createRow, Action.bind_apply_of_error (congrArg Prod.fst hentity)] at h
    cases h

/-- A request for a new row that is answered as created adds the row that it is answered with. -/
theorem of_created {service : Service} {post : Request} (hpost : post.method = "POST")
    (hroute : post.LeadsToRows service.model e) {store : Memory}
    (hcreated : (service.answer post store).1.status = 201) :
    ∃ row, (service.answer post store).1 = .one 201 (shownRow e (.object row)) ∧
      (service.answer post store).2.rows e.id = store.rows e.id ++ [row] := by
  obtain ⟨segment, hsegment, he⟩ := hroute
  have hanswer : service.answer post store =
      service.carryOut (withBody post.bodyValue (.create segment)) store := by
    rw [answer_of_ne_head (by rw [hpost]; decide), orderOf_of_post hpost hsegment]
  cases hbody : post.bodyValue with
  | error cause =>
      rw [hanswer, hbody] at hcreated
      have hfailure := Rejection.le_response_status cause
      change cause.response.status = 201 at hcreated
      omega
  | ok body =>
      rw [hbody] at hanswer
      change _ = service.carryOut (.entity (.create segment body)) store at hanswer
      have hresponse := carryOut_entity_fst service (.create segment body) store
      rw [hanswer] at hcreated ⊢
      rw [carryOut_entity_snd]
      rw [Command.run] at hresponse ⊢
      cases hresult : (createRow service.model segment body store).1 with
      | error cause =>
          rw [hresult] at hresponse
          dsimp only at hresponse
          rw [hresponse] at hcreated
          have hfailure := le_errorResponse_status cause
          omega
      | ok response =>
          rw [hresult] at hresponse
          obtain ⟨data, hafter, rfl⟩ := of_createRow he hresult
          exact ⟨_, hresponse, by rw [hafter, store.insertRow_rows_self e data]⟩

end Created

/-- The request for a row is answered with the one row that has the key and is in use. -/
theorem answer_rowAt {service : Service} {e : Entity} {r : Request} {store : Memory}
    (hroute : r.LeadsToRows service.model e) (hread : e.allows "read") {key : Value} {row : Record}
    (hkey : IsKey e.keyType key) (honly : (store.rows e.id).filter (e.shows key) = [row])
    {segment : String} (hbulk : segment ≠ "bulk")
    (hsegment : segmentText? segment = some key.plainText) :
    (service.answer (r.rowAt segment) store).1 = .one 200 (shownRow e (.object row)) := by
  obtain ⟨name, hname, he⟩ := hroute
  have hfound := find_fst_of_filter_eq_singleton (m := service.model) hkey.not_null honly
  have horder := orderOf_rowAt hname hsegment hkey.plainText_ne hbulk service
  have hget : (r.rowAt segment).method = "GET" := rfl
  have hrepository : ((Repository.of service.model e).withParams .empty).loadRequested =
      Repository.of service.model e := rfl
  rw [answer_of_get hget, horder, carryOut_entity_fst, Command.run,
    readRow_apply he hread hkey.readKey_plainText, hrepository, Action.mapValue_fst, hfound]
  rfl

/-- What has been created can be read: if the answer to a request for a new row is that it has been
created, the row has been added to the table, and the request for it is answered with the same data,
however the text of its key is encoded, but for the word for many new rows.  The key is one of its
type, and the same as none that has been there before; rows of the entity are always in use. -/
theorem created_row_can_be_read {service : Service} {e : Entity} {post : Request}
    (hpost : post.method = "POST") (hroute : post.LeadsToRows service.model e)
    (hread : e.allows "read") (hgate : e.activeFlag = none) (store : Memory)
    (hcreated : (service.answer post store).1.status = 201) :
    let after := (service.answer post store).2
    ∃ row, (service.answer post store).1 = .one 201 (shownRow e (.object row)) ∧
      after.rows e.id = store.rows e.id ++ [row] ∧
      let key := Record.cell row e.primaryKey
      (IsKey e.keyType key → (∀ old ∈ store.rows e.id, Memory.hasKey e key old = false) →
        (∃ segment ≠ "bulk", segmentText? segment = some key.plainText) ∧
        ∀ segment ≠ "bulk", segmentText? segment = some key.plainText →
          (service.answer (post.rowAt segment) after).1 = .one 200 (shownRow e (.object row))) := by
  intro after
  obtain ⟨row, hresponse, hrows⟩ := of_created hpost hroute hcreated
  refine ⟨row, hresponse, hrows, ?_⟩
  intro key hkey hfresh
  have hshows : ∀ row, e.shows key row = Memory.hasKey e key row := by
    intro row
    rw [Entity.shows, Entity.inUse, hgate]
    exact Bool.and_true _
  have honly : (after.rows e.id).filter (e.shows key) = [row] := by
    have hold : (store.rows e.id).filter (e.shows key) = [] := by
      refine List.filter_eq_nil_iff.mpr fun old hold => ?_
      rw [hshows, hfresh old hold]
      exact Bool.false_ne_true
    have hnew : e.shows key row := by
      rw [hshows]
      exact hkey.same
    rw [hrows, List.filter_append, hold, List.nil_append, List.filter_cons_of_pos hnew,
      List.filter_nil]
  exact ⟨exists_segment _, fun segment hbulk hsegment =>
    answer_rowAt hroute hread hkey honly hbulk hsegment⟩

/-! ### Labels -/

namespace Labels

/-- Labels, which have their names as keys. -/
def labels (type : String) : Config.EntityDeclaration where
  id := "labels"
  schema := "public"
  table := "labels"
  pathSegment := "labels"
  primaryKey := "name"
  createdAt := "created_at"
  updatedAt := "updated_at"
  columns := [⟨"name", .simple type, false, none⟩, ⟨"colour", .simple "text", true, none⟩]
  filterableFields := []
  activeFlag := none
  defaultSort := none
  aggregates := []
  operations := ["create", "read", "update", "delete"]
  sensitiveColumns := []
  validation := []
  pageSize := 25

/-- The entity of labels. -/
def label (type : String) : Entity := Model.entityOf [] (labels type)

/-- A service for labels. -/
def service (type : String) : Service := ⟨⟨[label type]⟩, true⟩

/-- A store without labels. -/
def empty (type : String) : Memory where
  model := (service type).model
  clock := "2000-01-01T00:00:00+00:00"
  identifiers := fun n => ⟨(Nat.toDigits 16 n).leftpad 32 '0'⟩

/-- A new label. -/
def addition (name : String) : Request :=
  ⟨"POST", .read "/api/v1/labels", some "application/json",
    "\x7b\"name\":\"" ++ name ++ "\"\x7d"⟩

/-- An identifier in a spelling in which identifiers are not written. -/
def capitals : String := "A0EEBC99-9C0B-11EF-BB6D-6BB9BD380A11"

/-- The statuses of the answers to a new label and to the request for it. -/
def statuses (type name segment : String) : Nat × Nat :=
  let (created, store) := (service type).answer (addition name) (empty type)
  (created.status, ((service type).answer ((addition name).rowAt segment) store).1.status)

/-- A store with one label. -/
def shelf : Memory := ((service "text").answer (addition "a") (empty "text")).2

/-- The text that a value is. -/
def text? : Value → Option String
  | .string s => some s
  | _ => none

theorem eq_string_of_text? {v : Value} {s : String} (h : text? v = some s) : v = .string s := by
  cases v with
  | string t => rw [Option.some.inj h]
  | _ => cases h

end Labels

open Labels in
/-- Beside another label, one with a slash and a letter with a diaeresis in its name is found. -/
theorem created_row_can_be_read_labels :
    (shelf.rows "labels").length = 1 ∧
      ((service "text").answer (addition "ä/b") shelf).1.status = 201 ∧
      ∃ row, ((service "text").answer (addition "ä/b") shelf).2.rows "labels" =
          shelf.rows "labels" ++ [row] ∧
        IsKey .text (Record.cell row "name") ∧
        (∀ old ∈ shelf.rows "labels",
          Memory.hasKey (label "text") (Record.cell row "name") old = false) ∧
        ((service "text").answer ((addition "ä/b").rowAt "%C3%A4%2Fb")
          ((service "text").answer (addition "ä/b") shelf).2).1 =
            .one 200 (shownRow (label "text") (.object row)) := by
  have hroute : (addition "ä/b").LeadsToRows (service "text").model (label "text") :=
    ⟨"labels", by decide, rfl⟩
  have hcreated : ((service "text").answer (addition "ä/b") shelf).1.status = 201 := by
    decide +kernel
  obtain ⟨row, -, hrows, hfound⟩ :=
    created_row_can_be_read rfl hroute (by decide) rfl shelf hcreated
  have hname : (((service "text").answer (addition "ä/b") shelf).2.rows "labels").getLast?.map
      (fun row => text? (Record.cell row "name")) = some (some "ä/b") := by
    decide +kernel
  have hcell : Record.cell row "name" = .string "ä/b" := by
    rw [show ((service "text").answer (addition "ä/b") shelf).2.rows "labels" = _ from hrows,
      List.getLast?_concat, Option.map_some, Option.some.injEq] at hname
    exact eq_string_of_text? hname
  have hkey : IsKey .text (Record.cell row "name") :=
    ⟨"ä/b", hcell, by decide, by rw [hcell]; decide +kernel⟩
  have hfresh : ∀ old ∈ shelf.rows "labels",
      Memory.hasKey (label "text") (Record.cell row "name") old = false := by
    rw [hcell]
    decide +kernel
  have hspelled : segmentText? "%C3%A4%2Fb" = some (Record.cell row "name").plainText := by
    rw [hcell]
    decide +kernel
  have hanswer := (hfound hkey hfresh).2 "%C3%A4%2Fb" (by decide) hspelled
  exact ⟨by decide +kernel, hcreated, row, hrows, hkey, hfresh, hanswer⟩

open Labels in
/-- The label whose name is the word for many new rows is created but cannot be read by that word,
which leads to no row; nor can one be read whose identifier is written in capitals, since the one
that is looked up is not. -/
theorem label_cannot_be_read :
    (∀ type ∈ ["text", "uuid"], Model.resolve ⟨[labels type], []⟩ = .ok (service type).model ∧
      (label type).activeFlag = none ∧ (label type).allows "create" ∧ (label type).allows "read" ∧
      (empty type).rows "labels" = []) ∧
    ((label "text").keyType = .text ∧ (numberOf? (.string "bulk")).isNone ∧
      statuses "text" "bulk" "bulk" = (201, 405)) ∧
    ((label "uuid").keyType = .uuid ∧ (Uuid.read? capitals).isSome ∧
      statuses "uuid" capitals capitals = (201, 404)) := by
  refine ⟨List.forall_mem_cons.mpr ⟨?_, List.forall_mem_singleton.mpr ?_⟩, by decide +kernel⟩
  · exact ⟨rfl, rfl, by decide, by decide, rfl⟩
  · exact ⟨rfl, rfl, by decide, by decide, rfl⟩

end EntityService
