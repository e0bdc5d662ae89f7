import EntityService.Proofs.Dialogue
import EntityService.Proofs.Handling

/-!
# What is reported about a removal

A row is looked up by its key, and then removed by another statement.  What a removal comes to is
read from the replies to the two; other clients may have changed the rows in between.

## Main definitions

* `Reply.affected?` — the number of rows that a statement has affected
* `Request.AsksForRemoval` — a request to remove one row

## Main results

* `deleteById_fst` — the value of a removal, by the two replies
* `deleteById_eq_ok_iff`, `deleteById_notFound_iff` — when a removal succeeds, and when no row is
  there to be removed
* `status_answer_removal_iff` — when a request to remove a row is answered with success
* `removals_reported_by_replies` — all of this for every repository of an entity and every request

## Design notes

A removal succeeds with `false` when the look-up has given a row and the second statement has
affected none.  The handler does not look at this value: its answer tells only that neither of the
two statements has failed.
-/

namespace EntityService

open EntityService.Http EntityService.Json EntityService.Model EntityService.Query EntityService.Sql
open EntityService.Store

/-- The number of rows that a statement has affected, unless it is refused. -/
def Store.Reply.affected? : Reply → Option Nat
  | .rows r => some r.affected
  | .refused _ _ => none

theorem Store.Reply.givesRow_iff {r : Reply} :
    r.givesRow ↔ ∃ row, r.firstRow = .ok (some row) := by
  rw [givesRow_eq]
  cases r.firstRow with
  | error cause => simp
  | ok row => cases row <;> simp

namespace Session

open Database

section Told

variable {s : Session Database} (hopen : s.store.link.isOpen) (id : Value)
include hopen

/-- A removal fails as the look-up or as the second statement does, and else it tells whether this
statement has affected any rows. -/
theorem deleteById_fst :
    (deleteById id s).1 =
      (lookedUp s.repository.entity id (s.store.link.reply 0)).bind fun _ =>
        (s.store.link.reply 1).read.map fun rows => decide (0 < rows.affected) := by
  let remove : Action (Session Database) Bool := do
    let plan ← take (·.keyPlan id)
    return 0 < (← onStore (Storage.delete plan))
  have hdelete : deleteById id s = (find id [] >>= fun _ => remove) s.drained := rfl
  have hfind := find_eq_told (s := s.drained) hopen id []
  have hremove (t : Session Database) (ht : t.store.link.isOpen) :
      (remove t).1 = (t.store.link.reply 0).read.map fun rows => decide (0 < rows.affected) := by
    have hcount := delete_apply ht (t.repository.keyPlan id)
    show ((onStore (Storage.delete (t.repository.keyPlan id)) >>= fun count =>
      pure (decide (0 < count))) t.drained).1 = _
    rw [Action.bind_pure_apply, Action.mapValue_fst, onStore_apply]
    show (Storage.delete (t.repository.keyPlan id) t.store).1.map _ = _
    rw [hcount]
    cases (t.store.link.reply 0).read <;> rfl
  rw [hdelete]
  cases hlooked : lookedUp s.repository.entity id (s.store.link.reply 0) with
  | error cause =>
      have hresult : (find id [] s.drained).1 = .error cause :=
        (congrArg Prod.fst hfind).trans hlooked
      rw [Action.bind_apply_of_error hresult]
      rfl
  | ok row =>
      have hresult : (find id [] s.drained).1 = .ok row :=
        (congrArg Prod.fst hfind).trans hlooked
      rw [Action.bind_apply_of_ok hresult, hfind, hremove _ ((isOpen_told _ _).trans hopen)]
      show (Link.reply (Database.told [_] _).link 0).read.map _ = _
      rw [reply_told]
      rfl

/-- A removal succeeds when the look-up gives a row and the second statement is not refused, and
then it tells whether this statement has affected any rows. -/
theorem deleteById_eq_ok_iff (removed : Bool) :
    (deleteById id s).1 = .ok removed ↔
      (s.store.link.reply 0).givesRow ∧
        ∃ n, (s.store.link.reply 1).affected? = some n ∧ removed = decide (0 < n) := by
  rw [deleteById_fst hopen, Reply.givesRow_iff, lookedUp]
  cases (s.store.link.reply 0).firstRow with
  | error cause => simp [Except.bind]
  | ok row =>
      cases row with
      | none => simp [Except.bind]
      | some row =>
          cases s.store.link.reply 1 with
          | refused code text => simp [Except.bind, Reply.read, Except.map, Reply.affected?]
          | rows r => simp [Except.bind, Reply.read, Except.map, Reply.affected?, eq_comm]

/-- A removal finds no row when the look-up gives none. -/
theorem deleteById_notFound_iff :
    (deleteById id s).1 = .error (.notFound (.row s.repository.entity.id id)) ↔
      (s.store.link.reply 0).firstRow = .ok none := by
  rw [deleteById_fst hopen, lookedUp]
  cases hfirst : (s.store.link.reply 0).firstRow with
  | error cause =>
      have hdatabase : ∃ e, cause = .database e := by
        cases hreply : s.store.link.reply 0 with
        | rows r =>
            rw [hreply] at hfirst
            cases hfirst
        | refused code text =>
            rw [hreply] at hfirst
            cases hfirst
            exact ⟨_, rfl⟩
      obtain ⟨e, rfl⟩ := hdatabase
      simp [Except.bind]
  | ok row =>
      cases row with
      | none => simp [Except.bind]
      | some row =>
          cases s.store.link.reply 1 <;> simp [Except.bind, Reply.read, Except.map]

end Told

end Session

/-! ## Requests -/

namespace Http

/-- A request asks, without a body, to remove the row of an entity with a key. -/
structure Request.AsksForRemoval (r : Request) (m : Model) (e : Entity) (key : String) : Prop where
  method : r.method = "DELETE"
  route : r.LeadsToRow m e key
  body : ∃ body, r.bodyText = .ok body ∧ isEmptyBody body

section Answer

variable {service : Service} {r : Request} {e : Entity} {key : String}

/-- A request to remove a row is answered after the key has been read and the row removed. -/
theorem answer_removal {σ : Type} [Storage σ] (h : r.AsksForRemoval service.model e key)
    (hdelete : e.allows "delete") (s : σ) :
    let removal := (accepted (readKey e.keyType key) >>= fun id =>
      inSession (Repository.of service.model e) (Session.deleteById id)) s
    service.answer r s = (match removal.1 with
      | .ok _ => .bare 204
      | .error cause => errorResponse cause, removal.2) := by
  intro removal
  obtain ⟨segment, hroute, he⟩ := h.route
  obtain ⟨body, hbody, hempty⟩ := h.body
  have hhead : r.method ≠ "HEAD" := by
    rw [h.method]
    decide
  have hrun : (Command.delete segment key body).run service.model s =
      (removal.1.map fun _ => .bare 204, removal.2) :=
    deleteRow_apply he hdelete hempty s
  rw [answer_of_ne_head hhead, orderOf_of_delete h.method hroute, hbody]
  apply Prod.ext
  · show (service.carryOut (.entity (.delete segment key body)) s).1 = _
    rw [carryOut_entity_fst, hrun]
    cases removal.1 <;> rfl
  · show (service.carryOut (.entity (.delete segment key body)) s).2 = _
    rw [carryOut_entity_snd, hrun]

/-- A request to remove a row is answered with success when the key can be read, the look-up gives a
row and the second statement is not refused, however many rows it has affected. -/
theorem status_answer_removal_iff (h : r.AsksForRemoval service.model e key)
    (hdelete : e.allows "delete") {d : Database} (hopen : d.link.isOpen) :
    (service.answer r d).1.status = 204 ↔
      ∃ id n, readKey e.keyType key = .ok id ∧ (d.link.reply 0).givesRow ∧
        (d.link.reply 1).affected? = some n := by
  rw [answer_removal h hdelete]
  cases hkey : readKey e.keyType key with
  | error fault =>
      constructor
      · intro hstatus
        have hfailure : (errorResponse (.badRequest fault)).status = 204 := hstatus
        exact absurd (hfailure ▸ le_errorResponse_status _) (by decide)
      · rintro ⟨id, n, hid, -⟩
        cases hid
  | ok id =>
      let s : Session Database := ⟨Repository.of service.model e, d⟩
      have hremoval := Session.deleteById_eq_ok_iff (s := s) hopen id
      show (match (Session.deleteById id s).1 with
        | .ok _ => Response.bare 204
        | .error cause => errorResponse cause).status = 204 ↔ _
      constructor
      · intro hstatus
        cases hresult : (Session.deleteById id s).1 with
        | error cause =>
            rw [hresult] at hstatus
            exact absurd (hstatus ▸ le_errorResponse_status cause) (by decide)
        | ok removed =>
            obtain ⟨hgives, n, hn, -⟩ := (hremoval removed).mp hresult
            exact ⟨id, n, rfl, hgives, hn⟩
      · rintro ⟨other, n, -, hgives, hn⟩
        rw [(hremoval (decide (0 < n))).mpr ⟨hgives, n, hn, rfl⟩]
        rfl

end Answer

end Http

/-! ## Every removal of one row -/

section Reported

variable {m : Model} {e : Entity} {d : Database}

/-- What a removal of one row comes to, whatever the database replies.  It succeeds with `true` when
the look-up gives a row and the second statement affects some rows, with `false` when this statement
affects none, and it finds no row when the look-up gives none.  A request to remove a row is
answered with success in the first two cases, and then both statements have been sent. -/
theorem removals_reported_by_replies (hopen : d.link.isOpen) :
    let reply := d.link.reply
    (∀ r : Repository, r.IsOf m e → ∀ id,
      let removal := Session.deleteById id ⟨r, d⟩
      (removal.1 = .ok true ↔
        (reply 0).givesRow ∧ ∃ n > 0, (reply 1).affected? = some n) ∧
      (removal.1 = .ok false ↔ (reply 0).givesRow ∧ (reply 1).affected? = some 0) ∧
      (removal.1 = .error (.notFound (.row e.id id)) ↔ (reply 0).firstRow = .ok none)) ∧
    (∀ (service : Service) (r : Request) (key : String), service.model = m →
      r.AsksForRemoval m e key → e.allows "delete" →
      let answered := service.answer r d
      (answered.1.status = 204 ↔ ∃ id n, readKey e.keyType key = .ok id ∧
        (reply 0).givesRow ∧ (reply 1).affected? = some n) ∧
      (answered.1.status = 204 → ∃ id, readKey e.keyType key = .ok id ∧
        answered.2 = d.told [lookup e id, removal e (.compare e.primaryKey .eq id)])) := by
  intro reply
  constructor
  · intro r hr id
    have hsucceeds := Session.deleteById_eq_ok_iff (s := ⟨r, d⟩) hopen id
    have hnotFound := Session.deleteById_notFound_iff (s := ⟨r, d⟩) hopen id
    rw [hr.entity_eq] at hnotFound
    refine ⟨(hsucceeds true).trans ?_, (hsucceeds false).trans ?_, hnotFound⟩
    · refine and_congr_right fun _ => exists_congr fun n => ?_
      rw [gt_iff_lt, and_comm, @eq_comm _ true, decide_eq_true_iff]
    · refine and_congr_right fun _ => ?_
      constructor
      · rintro ⟨n, hn, hnone⟩
        have hzero : n = 0 := Nat.eq_zero_of_not_pos (decide_eq_false_iff_not.mp hnone.symm)
        rw [← hzero]
        exact hn
      · exact fun hn => ⟨0, hn, rfl⟩
  · rintro service r key rfl hasks hdelete
    have hstatus := status_answer_removal_iff hasks hdelete hopen
    refine ⟨hstatus, fun hsuccess => ?_⟩
    obtain ⟨id, n, hkey, hgives, -⟩ := hstatus.mp hsuccess
    refine ⟨id, hkey, ?_⟩
    rw [answer_removal hasks hdelete, hkey]
    refine (Session.deleteById_told (s := ⟨Repository.of service.model e, d⟩) hopen id).trans ?_
    rw [if_pos hgives, ← select_keyPlan, ← deleteRows_keyPlan]
    rfl

end Reported

/-! ### A bookshop with another client -/

namespace Bookshop

/-- A database that gives the first book, and then says how many rows a statement has affected. -/
def answering (affected : Nat) : Database :=
  ⟨model, .replies [.rows { columns := [("id", "int8")], cells := [[.ofInt 1]] },
    .rows { affected }], []⟩

/-- A request to remove the first book. -/
def firstRemoval : Request := ⟨"DELETE", .read "/api/v1/books/1", none, ""⟩

theorem asksForRemoval_firstRemoval : firstRemoval.AsksForRemoval model books "1" where
  method := rfl
  route := ⟨"books", by decide, rfl⟩
  body := ⟨"", rfl, rfl⟩

end Bookshop

open Bookshop in
/-- The first book is removed, and this is reported. -/
theorem removals_reported_by_replies_books :
    (answering 1).link.isOpen ∧ (Repository.of model books).IsOf model books ∧
      firstRemoval.AsksForRemoval model books "1" ∧ books.allows "delete" ∧
      (Session.deleteById (.ofInt 1) ⟨Repository.of model books, answering 1⟩).1 = .ok true ∧
      ((⟨model, true⟩ : Service).answer firstRemoval (answering 1)).1.status = 204 := by
  have hopen : (answering 1).link.isOpen := rfl
  have hof := Repository.isOf_of model books
  obtain ⟨hremoval, hanswer⟩ := removals_reported_by_replies (m := model) (e := books) hopen
  obtain ⟨htrue, -⟩ := hremoval _ hof (.ofInt 1)
  obtain ⟨hstatus, -⟩ := hanswer ⟨model, true⟩ _ "1" rfl asksForRemoval_firstRemoval (by decide)
  have hkey : readKey books.keyType "1" = .ok (.ofInt 1) := rfl
  exact ⟨hopen, hof, asksForRemoval_firstRemoval, by decide, htrue.mpr ⟨rfl, 1, by decide, rfl⟩,
    hstatus.mpr ⟨.ofInt 1, 1, hkey, rfl, rfl⟩⟩

open Bookshop in
/-- Another client removes the first book between the two statements: both have been sent, nothing
is removed, and the request is answered with success. -/
theorem removal_of_none_is_success :
    let s : Session Database := ⟨Repository.of model books, answering 0⟩
    let answered := (⟨model, true⟩ : Service).answer firstRemoval (answering 0)
    (Session.deleteById (.ofInt 1) s).1 = .ok false ∧ answered.1.status = 204 ∧
      answered.2.sent =
        [lookup books (.ofInt 1), removal books (.compare "id" .eq (.ofInt 1))] := by
  intro s answered
  have hfalse := Session.deleteById_eq_ok_iff (s := s) rfl (.ofInt 1) false
  exact ⟨hfalse.mpr ⟨rfl, 0, rfl, rfl⟩, by decide +kernel, rfl⟩

end EntityService
