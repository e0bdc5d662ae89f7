import EntityService.Proofs.Paging
import EntityService.Proofs.RowShapes
import EntityService.Store.Database

/-!
# Parts of requests that are ignored

A request for a list may name relations that there are not, counts that there are not, and
parameters that mean nothing.  No store takes notice of them.

## Main definitions

* `Plan.AgreesWith` — two plans differ at most in relation paths that lead nowhere
* `Params.inForce?` — the parameter that counts among several
* `Ignored` — parameters that have one part more than others, a part without meaning
* `Request.withQuery` — a request with another query

## Main results

* `Plan.AgreesWith.shown_eq`, `Plan.AgreesWith.select_congr`, … — plans that agree are run alike
* `Ignored.agrees` — with and without an ignored part, the plans of a request agree
* `ignored_part_changes_nothing` — nor do the answers differ, or the statements that are sent

## Design notes

A path that is not known stays in the plan, and each store passes over it by itself.  What both
stores see of the paths of a plan are the known ones, so one relation between plans does for both.

Every parameter may also be a filter, the directives among them.  A directive whose key is a column
that rows may be filtered by is therefore never without meaning, however it is spelled.
-/

namespace EntityService

open EntityService.Http EntityService.Json EntityService.Model EntityService.Query
open EntityService.Sql EntityService.Store

/-! ## Plans that agree -/

namespace Model

/-- Two plans differ at most in relation paths that are not known. -/
structure Plan.AgreesWith (m : EntityService.Model) (p q : Plan) : Prop where
  entity : p.entity = q.entity
  filters : p.calls.filters = q.calls.filters
  orders : p.calls.orders = q.calls.orders
  relations : knownRelations m p = knownRelations m q
  counts : p.calls.counts = q.calls.counts
  limit : p.calls.limit? = q.calls.limit?

namespace Plan.AgreesWith

variable {m : EntityService.Model} {p q : Plan} (h : AgreesWith m p q)

include h

theorem directedOrders_congr : p.calls.directedOrders = q.calls.directedOrders := by
  rw [Calls.directedOrders, h.orders, Calls.directedOrders]

/-! ### In memory -/

theorem selected_congr (store : Memory) : store.selected p = store.selected q := by
  have horders : p.orders = q.orders := by
    rw [Plan.orders, Calls.effectiveOrders, h.directedOrders_congr, h.entity, Plan.orders,
      Calls.effectiveOrders]
  have hpasses : passesAll p = passesAll q := by
    funext row
    rw [passesAll, h.filters, passesAll]
  rw [Memory.selected, selection, horders, hpasses, h.entity, Memory.selected, selection]

theorem shown_congr {store : Memory} (hstore : store.model = m) (columns : List String) :
    store.shown p columns = store.shown q columns := by
  funext row
  have hcounted : store.counted p row = store.counted q row := by
    rw [Memory.counted, h.counts, h.entity, Memory.counted]
  rw [shown_eq, shown_eq, shownRecord, shownRecord, hcounted, hstore, h.relations,
    h.entity]

theorem get_fst_congr {store : Memory} (hstore : store.model = m) (columns : List String) :
    (Storage.get p columns store).1 = (Storage.get q columns store).1 := by
  simp only [Memory.get_fst, h.limit, h.selected_congr, h.shown_congr hstore]

theorem paginate_fst_congr {store : Memory} (hstore : store.model = m) (columns : List String)
    (perPage page : Nat) :
    (Storage.paginate p columns perPage page store).1 =
      (Storage.paginate q columns perPage page store).1 := by
  simp only [Memory.paginate_fst, h.selected_congr, h.shown_congr hstore]

/-! ### In a database -/

theorem wherePart_congr : wherePart p = wherePart q := by
  rw [wherePart, h.filters, h.entity, wherePart]

theorem orderPart_congr : orderPart p = orderPart q := by
  rw [orderPart, h.directedOrders_congr, h.entity, orderPart]

theorem select_congr (columns : List String) (window : Option (Nat × Nat)) :
    select m p columns window = select m q columns window := by
  unfold select
  dsimp only
  rw [relationForest_eq, relationForest_eq, h.relations, h.entity, h.counts, h.limit,
    h.wherePart_congr, h.orderPart_congr]

theorem countRows_congr : countRows p = countRows q := by
  rw [countRows, h.entity, h.wherePart_congr, countRows]

theorem get_congr {d : Database} (hd : d.model = m) (columns : List String) :
    Storage.get p columns d = Storage.get q columns d := by
  simp only [Storage.get, hd, h.select_congr]

theorem paginate_congr {d : Database} (hd : d.model = m) (columns : List String)
    (perPage page : Nat) :
    Storage.paginate p columns perPage page d = Storage.paginate q columns perPage page d := by
  simp only [Storage.paginate, hd, h.select_congr, h.countRows_congr]

end Plan.AgreesWith

end Model

/-! ## Parameters without meaning -/

namespace Query.Params

variable {p : Params} {keys : List String} {key value : String}

/-- The parameter that counts among several: the first one whose value is not blank. -/
def inForce? (p : Params) (keys : List String) : Option (String × String) :=
  keys.findSome? fun key =>
    ((p.get? key).filter fun value => !Text.isBlankText value).map fun value => (key, value)

theorem firstOf?_eq (p : Params) (keys : List String) :
    p.firstOf? keys = (p.inForce? keys).map Prod.snd := by
  unfold firstOf? inForce?
  induction keys with
  | nil => rfl
  | cons key keys ih =>
      rw [List.findSome?_cons, List.filterMap_cons]
      cases p.get? key with
      | none => exact ih
      | some value =>
          dsimp only
          rw [List.find?_cons, Option.filter_some]
          cases Text.isBlankText value with
          | false => rfl
          | true => exact ih

theorem of_inForce? (h : p.inForce? keys = some (key, value)) :
    key ∈ keys ∧ p.firstOf? keys = some value := by
  obtain ⟨other, hother, heq⟩ := List.exists_of_findSome?_eq_some h
  obtain ⟨_, -, heq⟩ := Option.map_eq_some_iff.mp heq
  obtain ⟨rfl, -⟩ := Prod.mk.inj heq
  exact ⟨hother, by rw [firstOf?_eq, h, Option.map_some]⟩

/-- Another value for the parameter in force is in force, unless it is blank. -/
theorem firstOf?_put (h : p.inForce? keys = some (key, value)) {other : String}
    (hother : Text.isBlankText other = false) :
    (p.put key other).firstOf? keys = some other := by
  have hforce : (p.put key other).inForce? keys = some (key, other) := by
    unfold inForce? at h ⊢
    induction keys with
    | nil => cases h
    | cons k keys ih =>
        rw [List.findSome?_cons] at h ⊢
        by_cases hk : k = key
        · rw [hk, get?_put_self, Option.filter_some, hother]
          rfl
        · -- keys before it have the values that they had
          rw [get?_put_of_ne p other hk]
          split at h
          · next param heq =>
              obtain ⟨_, -, hparam⟩ := Option.map_eq_some_iff.mp heq
              rw [Option.some.injEq] at h
              exact absurd (congrArg Prod.fst (hparam.trans h)) hk
          · exact ih h
  rw [firstOf?_eq, hforce, Option.map_some]

/-- One parameter more makes no difference to the others. -/
theorem get?_insert {before after : List (String × String)} (h : p.pairs = before ++ after)
    {other : String} (hne : other ≠ key) :
    Params.get? ⟨before ++ (key, value) :: after⟩ other = p.get? other := by
  rw [get?, get?, h, List.lookup_append, List.lookup_append, List.lookup_cons,
    beq_false_of_ne hne]

end Query.Params

/-- The keys of parameters that have a meaning for lists. -/
def reservedKeys : List String :=
  "sort" :: pagingKeys ++ Repository.loadKeys ++ Repository.countKeys

/-- Parameters with one part more, which means nothing for an entity: entries of a directive that
name neither a relation path nor a count in either spelling, or a parameter. -/
inductive Ignored (m : Model) (e : Entity) (p : Params) : Params → Prop
  | load {key directive entries : String} :
      p.inForce? Repository.loadKeys = some (key, directive) → ¬e.filterable.contains key →
      (∀ entry ∈ directiveEntries (some entries),
        m.pathChain? e entry = none ∧ m.pathChain? e (Naming.camelPath entry) = none) →
      Ignored m e p (p.put key (directive ++ "," ++ entries))
  | count {key directive entries : String} :
      p.inForce? Repository.countKeys = some (key, directive) → ¬e.filterable.contains key →
      (∀ entry ∈ directiveEntries (some entries),
        entry ∉ e.aggregates ∧ Naming.camelCase entry ∉ e.aggregates) →
      Ignored m e p (p.put key (directive ++ "," ++ entries))
  | param {key value : String} {before after : List (String × String)} :
      p.pairs = before ++ after → p.get? key = none → key ∉ reservedKeys →
      ¬e.filterable.covers key → Ignored m e p ⟨before ++ (key, value) :: after⟩

/-! ### What a request asks for -/

theorem not_mem_countKeys {key : String} (h : key ∈ Repository.loadKeys) :
    key ∉ Repository.countKeys := by
  revert key
  decide

theorem searchPlan_calls (r : Repository) :
    r.searchPlan.calls =
      compose r.pending r.requestedInclusion r.requestedSorts r.requestedClauses := rfl

/-- The paths that parameters ask to load, as often as they do. -/
def requestedPaths (m : Model) (e : Entity) (p : Params) : List String :=
  (directiveEntries (p.firstOf? Repository.loadKeys)).map (resolvePath (m.knownNames e))

/-- The relations that parameters ask to count, as often as they do. -/
def requestedCounts (m : Model) (e : Entity) (p : Params) : List String :=
  (directiveEntries (p.firstOf? Repository.countKeys)).filterMap (resolveCount? (m.knownNames e))

theorem directiveEntries_append (directive entries : String) :
    directiveEntries (some (directive ++ "," ++ entries)) =
      directiveEntries (some directive) ++ directiveEntries (some entries) := by
  have hpieces : Text.pieces ',' (directive ++ "," ++ entries) =
      Text.pieces ',' directive ++ Text.pieces ',' entries := Text.pieces_append ',' _ _
  rw [directiveEntries, Option.getD_some, hpieces, List.map_append, List.filter_append,
    directiveEntries, Option.getD_some, directiveEntries, Option.getD_some]

theorem isBlankText_append_comma (directive entries : String) :
    Text.isBlankText (directive ++ "," ++ entries) = false := by
  have hcomma : Text.isBlank ',' = false := by decide
  simp [Text.isBlankText, String.toList_append, hcomma]

/-- The known paths of a plan are those that the parameters ask for, each once. -/
theorem knownRelations_searchPlan (m : Model) (e : Entity) (p : Params) :
    knownRelations m ((Repository.of m e).withParams p).searchPlan =
      ((requestedPaths m e p).filter fun path =>
        (m.pathChain? e path).isSome).eraseDups.map (Text.pieces '.') := by
  have hrelations : ((Repository.of m e).withParams p).searchPlan.calls.relations =
      (requestedPaths m e p).eraseDups :=
    (relations_compose _ _ _ _).trans (eraseDups_eraseDups _)
  rw [← filter_eraseDups, ← hrelations, knownRelations, List.filter_map]
  rfl

namespace Ignored

variable {m : Model} {e : Entity} {p q : Params}

/-- Parameters that are neither directives to load nor to count are not touched. -/
theorem get?_eq (h : Ignored m e p q) {key : String} (hkey : key ∈ "sort" :: pagingKeys) :
    q.get? key = p.get? key := by
  have hdirectives : key ∉ Repository.loadKeys ∧ key ∉ Repository.countKeys := by
    simp only [pagingKeys, List.mem_cons, List.not_mem_nil, or_false] at hkey
    rcases hkey with rfl | rfl | rfl | rfl <;> decide
  cases h with
  | load hforce =>
      exact p.get?_put_of_ne _
        (ne_of_mem_of_not_mem (Params.of_inForce? hforce).1 hdirectives.1).symm
  | count hforce =>
      exact p.get?_put_of_ne _
        (ne_of_mem_of_not_mem (Params.of_inForce? hforce).1 hdirectives.2).symm
  | param hpairs _ hreserved =>
      exact Params.get?_insert hpairs
        (ne_of_mem_of_not_mem (List.mem_append_left _ (List.mem_append_left _ hkey)) hreserved)

theorem resolveFilters_eq (h : Ignored m e p q) :
    resolveFilters q e.filterable = resolveFilters p e.filterable := by
  have hdirective {key : String} (hkey : key ∈ Repository.loadKeys ++ Repository.countKeys)
      (hcontains : ¬e.filterable.contains key) : ¬e.filterable.covers key := by
    rwa [e.filterable.covers_of_no_suffix]
    simp only [Repository.loadKeys, Repository.countKeys, List.cons_append, List.nil_append,
      List.mem_cons, List.not_mem_nil, or_false] at hkey
    rcases hkey with rfl | rfl | rfl | rfl <;> decide
  cases h with
  | load hforce hcontains =>
      exact resolveFilters_put (hdirective
        (List.mem_append_left _ (Params.of_inForce? hforce).1) hcontains) p _
  | count hforce hcontains =>
      exact resolveFilters_put (hdirective
        (List.mem_append_right _ (Params.of_inForce? hforce).1) hcontains) p _
  | param hpairs _ _ hcovers =>
      simp only [resolveFilters, hpairs, List.flatMap_append, List.flatMap_cons,
        clausesOfParam_eq_nil hcovers, List.nil_append]

/-- The same paths are asked for, and others that lead nowhere. -/
theorem exists_loads (h : Ignored m e p q) :
    ∃ unknown, (∀ path ∈ unknown, m.pathChain? e path = none) ∧
      requestedPaths m e q = requestedPaths m e p ++ unknown := by
  have hsame (hfirst : q.firstOf? Repository.loadKeys = p.firstOf? Repository.loadKeys) :
      ∃ unknown, (∀ path ∈ unknown, m.pathChain? e path = none) ∧
        requestedPaths m e q = requestedPaths m e p ++ unknown :=
    ⟨[], nofun, by rw [requestedPaths, hfirst, List.append_nil, requestedPaths]⟩
  cases h with
  | @load key directive entries hforce _ hunknown =>
      refine ⟨(directiveEntries (some entries)).map (resolvePath (m.knownNames e)), ?_, ?_⟩
      · intro path hpath
        obtain ⟨entry, hentry, rfl⟩ := List.mem_map.mp hpath
        obtain ⟨hraw, hcamel⟩ := hunknown entry hentry
        rw [resolvePath]
        split
        · exact hcamel
        · exact hraw
      · rw [requestedPaths, Params.firstOf?_put hforce (isBlankText_append_comma _ _),
          directiveEntries_append, List.map_append, requestedPaths, (Params.of_inForce? hforce).2]
  | count hforce =>
      exact hsame (p.firstOf?_put_of_not_mem _ fun hkey =>
        not_mem_countKeys hkey (Params.of_inForce? hforce).1)
  | param hpairs _ hreserved =>
      refine hsame (Params.firstOf?_congr fun other hother => Params.get?_insert hpairs ?_)
      exact ne_of_mem_of_not_mem
        (List.mem_append_left _ (List.mem_append_right _ hother)) hreserved

/-- The same counts are asked for. -/
theorem requestedCounts_eq (h : Ignored m e p q) :
    requestedCounts m e q = requestedCounts m e p := by
  cases h with
  | load hforce =>
      rw [requestedCounts, p.firstOf?_put_of_not_mem _
        (not_mem_countKeys (Params.of_inForce? hforce).1), requestedCounts]
  | @count key directive entries hforce _ hunknown =>
      have hnone : (directiveEntries (some entries)).filterMap (resolveCount? (m.knownNames e)) =
          [] := by
        refine List.filterMap_eq_nil_iff.mpr fun entry hentry => ?_
        obtain ⟨hraw, hcamel⟩ := hunknown entry hentry
        simp [resolveCount?, Model.knownNames, hraw, hcamel]
      rw [requestedCounts, Params.firstOf?_put hforce (isBlankText_append_comma _ _),
        directiveEntries_append, List.filterMap_append, hnone, List.append_nil, requestedCounts,
        (Params.of_inForce? hforce).2]
  | param hpairs _ hreserved =>
      rw [requestedCounts, Params.firstOf?_congr fun other hother => Params.get?_insert hpairs
        (ne_of_mem_of_not_mem (List.mem_append_right _ hother) hreserved), requestedCounts]

/-- With and without a part that means nothing, the plans of a request agree. -/
theorem agrees (h : Ignored m e p q) :
    Plan.AgreesWith m ((Repository.of m e).withParams q).searchPlan
      ((Repository.of m e).withParams p).searchPlan where
  entity := rfl
  filters := by
    have hclauses : ((Repository.of m e).withParams q).requestedClauses =
        ((Repository.of m e).withParams p).requestedClauses := h.resolveFilters_eq
    rw [searchPlan_calls, filters_compose, hclauses, searchPlan_calls, filters_compose]
    rfl
  orders := by
    have hsorts : ((Repository.of m e).withParams q).requestedSorts =
        ((Repository.of m e).withParams p).requestedSorts :=
      congrArg (resolveSorts · e.defaultSort) (h.get?_eq List.mem_cons_self)
    rw [searchPlan_calls, orders_compose, hsorts, searchPlan_calls, orders_compose]
    rfl
  relations := by
    obtain ⟨unknown, hunknown, hpaths⟩ := h.exists_loads
    have hnone : unknown.filter (fun path => (m.pathChain? e path).isSome) = [] :=
      List.filter_eq_nil_iff.mpr fun path hpath => by simp [hunknown path hpath]
    rw [knownRelations_searchPlan, knownRelations_searchPlan, hpaths, List.filter_append, hnone,
      List.append_nil]
  counts := by
    rw [searchPlan_calls, counts_compose, searchPlan_calls, counts_compose]
    exact congrArg (·.eraseDups.eraseDups) h.requestedCounts_eq
  limit := by rw [searchPlan_calls, limit?_compose, searchPlan_calls, limit?_compose]; rfl

theorem wantsPages_eq (h : Ignored m e p q) : wantsPages q = wantsPages p := by
  rw [wantsPages, h.get?_eq (by decide), wantsPages]

theorem numberParam?_eq (h : Ignored m e p q) {key : String} (hkey : key ∈ pagingKeys) :
    ((Repository.of m e).withParams q).numberParam? key =
      ((Repository.of m e).withParams p).numberParam? key :=
  congrArg (·.bind fun raw => Number.readNatural64? (Text.trim raw))
    (h.get?_eq (List.mem_cons_of_mem _ hkey))

end Ignored

/-! ## Answers -/

/-- The request with another query. -/
def Http.Request.withQuery (r : Request) (query : String) : Request :=
  { r with target := { r.target with query } }

section Lists

variable {m : Model} {e : Entity} {segment : String} {p q : Params}

/-- A store in memory gives the same list with and without a part that means nothing. -/
theorem listRows_fst_eq_of_ignored (he : m.entityAt? segment = some e) (hread : e.allows "read")
    (h : Ignored m e p q) {store : Memory} (hstore : store.model = m) :
    (listRows m segment q store).1 = (listRows m segment p store).1 := by
  rw [listRows_apply he hread, listRows_apply he hread, h.wantsPages_eq]
  split
  · rw [Action.mapValue_fst, Action.mapValue_fst, inSession_search, inSession_search,
      h.numberParam?_eq (by decide), h.numberParam?_eq (by decide),
      h.agrees.paginate_fst_congr hstore]
    rfl
  · rw [Action.mapValue_fst, Action.mapValue_fst, inSession_all, inSession_all,
      requestPlan_withParams, requestPlan_withParams, h.agrees.get_fst_congr hstore]

/-- A database is asked the same with and without a part that means nothing. -/
theorem listRows_eq_of_ignored (he : m.entityAt? segment = some e) (hread : e.allows "read")
    (h : Ignored m e p q) {d : Database} (hd : d.model = m) :
    listRows m segment q d = listRows m segment p d := by
  rw [listRows_apply he hread, listRows_apply he hread, h.wantsPages_eq]
  split
  · rw [inSession_search, inSession_search, h.numberParam?_eq (by decide),
      h.numberParam?_eq (by decide)]
    exact Action.mapValue_congr (h.agrees.paginate_congr hd [] _ _) _
  · rw [inSession_all, inSession_all, requestPlan_withParams, requestPlan_withParams]
    exact Action.mapValue_congr (h.agrees.get_congr hd []) _

end Lists

/-- A part of a request for a list that means nothing is ignored: a store in memory answers as it
does without that part, and a database is sent the same statements and its replies are answered
alike.  The part is an entry of the directive in force that names no relation path, or no count, in
either spelling, unless rows may be filtered by the key of the directive; or it is a parameter with
a key of its own, by which rows may not be filtered. -/
theorem ignored_part_changes_nothing {service : Service} {e : Entity} {r : Request} {query : String}
    (hget : r.method = "GET") (hroute : r.LeadsToRows service.model e) (hread : e.allows "read")
    (h : Ignored service.model e r.params (r.withQuery query).params) :
    (∀ store : Memory, store.model = service.model →
      (service.answer (r.withQuery query) store).1 = (service.answer r store).1) ∧
    ∀ d : Database, d.model = service.model →
      service.answer (r.withQuery query) d = service.answer r d := by
  obtain ⟨segment, hsegment, he⟩ := hroute
  -- another query leads to the same rows
  have hother : (r.withQuery query).method = "GET" := hget
  have hsame : (Route.of? (r.withQuery query).target.segments).bind Route.decoded? =
      some (.rows segment) := hsegment
  refine ⟨fun store hstore => ?_, fun d hd => ?_⟩
  · rw [answer_of_get hother, answer_of_get hget, orderOf_of_get hother hsame,
      orderOf_of_get hget hsegment, carryOut_entity_fst, carryOut_entity_fst, Command.run,
      Command.run, listRows_fst_eq_of_ignored he hread h hstore]
  · rw [answer_of_get hother, answer_of_get hget, orderOf_of_get hother hsame,
      orderOf_of_get hget hsegment]
    exact carryOut_entity_congr (listRows_eq_of_ignored he hread h hd)

/-- Books with their authors, and with reviews, which there are not. -/
theorem ignored_part_changes_nothing_reviews :
    let service : Service := ⟨Bookshop.model, true⟩
    let r : Request := ⟨"GET", .read "/api/v1/books?include=author", none, ""⟩
    (r.withQuery "include=author,reviews").params.get? "include" = some "author,reviews" ∧
    (service.answer (r.withQuery "include=author,reviews") (Bookshop.store "")).1 =
      (service.answer r (Bookshop.store "")).1 := by
  intro service r
  have hforce : r.params.inForce? Repository.loadKeys = some ("include", "author") := by decide
  have hunknown : ∀ entry ∈ directiveEntries (some "reviews"),
      Bookshop.model.pathChain? Bookshop.books entry = none ∧
        Bookshop.model.pathChain? Bookshop.books (Naming.camelPath entry) = none := by
    decide
  have hput : (r.withQuery "include=author,reviews").params =
      r.params.put "include" ("author" ++ "," ++ "reviews") := by decide
  have hignored : Ignored Bookshop.model Bookshop.books r.params
      (r.withQuery "include=author,reviews").params :=
    hput ▸ .load hforce (by decide) hunknown
  exact ⟨by decide, (ignored_part_changes_nothing rfl ⟨"books", by decide, rfl⟩ (by decide)
    hignored).1 (Bookshop.store "") rfl⟩

/-! ### Boxes -/

namespace Boxes

/-- Boxes that may be filtered by how many things they hold. -/
def boxes : Config.EntityDeclaration where
  id := "boxes"
  schema := "public"
  table := "boxes"
  pathSegment := "boxes"
  primaryKey := "id"
  createdAt := "created_at"
  updatedAt := "updated_at"
  columns := [⟨"id", .simple "bigserial", true, none⟩, ⟨"count", .simple "integer", true, none⟩]
  filterableFields := ["count"]
  activeFlag := none
  defaultSort := none
  aggregates := []
  operations := ["create", "read"]
  sensitiveColumns := []
  validation := []
  pageSize := 25

/-- A service for boxes. -/
def service : Service := ⟨⟨[Model.entityOf [] boxes]⟩, true⟩

/-- A store with one box, which holds five things. -/
def store : Memory where
  model := service.model
  tables := [("boxes", ⟨[[("count", .ofInt 5), ("id", .ofInt 1)]], 1⟩)]
  clock := ""
  identifiers := fun n => ⟨(Nat.toDigits 16 n).leftpad 32 '0'⟩

/-- The boxes with five things, which is also a directive to count. -/
def five : Request := ⟨"GET", .read "/api/v1/boxes?count=5", none, ""⟩

end Boxes

open Boxes in
/-- A directive by whose key rows may be filtered is a filter as well, so an entry more that names
no count makes a difference. -/
theorem unknown_count_filters_boxes :
    Model.resolve ⟨[boxes], []⟩ = .ok service.model ∧
      five.method = "GET" ∧ five.LeadsToRows service.model (Model.entityOf [] boxes) ∧
      (Model.entityOf [] boxes).allows "read" ∧
      five.params.inForce? Repository.countKeys = some ("count", "5") ∧
      (five.withQuery "count=5,things").params = five.params.put "count" ("5" ++ "," ++ "things") ∧
      (∀ entry ∈ directiveEntries (some "things"), entry ∉ (Model.entityOf [] boxes).aggregates ∧
        Naming.camelCase entry ∉ (Model.entityOf [] boxes).aggregates) ∧
      store.model = service.model ∧
      (service.answer (five.withQuery "count=5,things") store).1 ≠
        (service.answer five store).1 := by
  refine ⟨rfl, rfl, ⟨"boxes", by decide, rfl⟩, by decide, by decide, by decide, by decide, rfl, ?_⟩
  intro heq
  let total (r : Response) : Option String := match r.content with
    | .value v => (member? v "total").map Value.text
    | _ => none
  have htotal := congrArg total heq
  revert htotal
  decide +kernel

end EntityService
