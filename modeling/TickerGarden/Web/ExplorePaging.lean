import TickerGarden.Backend.Decoded
import TickerGarden.Lib.Table
import TickerGarden.Lib.Transition

/-!
# The pager of the directory

The pager keeps the pages of the directory that a reader has come by, and fetches those that are
asked for. Its calls overlap: between a request and its answer, any of them may be made.

A **load** that fetches is a computation of its own, which goes on when the answer comes
(`System.resolve`), and again when its promise is settled (`System.onCatch`, `System.onFinally`).
Whoever pauses or resets the pager moves it to the next **generation**, and a load of an earlier
one has no effect any more. When the server says that a cursor is of a publication that is gone
(status 409), a load puts the pages aside, starts over with the first page, and takes them back
if that fails.

An item, a ranking and a query are what they are; of a query only its two texts are read. What a
page was fetched with stands beside it, and a load carries what a reader of the run would note:
no step reads these fields.
-/

namespace TickerGarden

open Checked
open Backend (JsError throwIf throwJs jsLength maxSafeInteger)

namespace Web

namespace ExplorePaging

/-! ### Pages -/

/-- What `createExplorePager` is given, and what it computes of a query and of an item. -/
structure Setup (Q T : Type) where
  pageSize : ℕ
  /-- `JSON.stringify(query)` -/
  stringify : Q → String
  /-- the same without the revision -/
  filters : Q → String
  sort : Q → Option String
  marketId : T → String

/-- A next cursor as it arrives. -/
inductive CursorValue
  | null
  | text (s : String)
  | other

/-- An answer as it arrives: the items may be no array, and one of them may have no market. -/
structure Response (T R : Type) where
  items : Option (List (Option T))
  nextCursor : CursorValue
  ranking : Option R

/-- A page as the pager keeps it: its items, the cursor of the next page, and what the page says of
the ranking. -/
structure StoredPage (T R : Type) where
  items : List T
  nextCursor : Option String
  ranking : Option R

/-- A page, with the query and the cursor it was fetched with. -/
structure CachedPage (Q T R : Type) extends StoredPage T R where
  query : Option Q
  cursor : Option String

/-- The `Map` of the pages. -/
abbrev Pages (Q T R : Type) := Table ℕ (CachedPage Q T R)

/-- What a load resolves to. -/
structure ExplorePage (T R : Type) where
  items : List T
  page : ℕ
  hasPrevious : Bool
  hasNext : Bool
  availablePages : ℕ
  recovered : Bool
  ranking : Option R

variable {Q T R : Type}

/-- The sorts whose pages are pinned to a ranking. -/
def Setup.ranked (env : Setup Q T) (q : Q) : Bool :=
  ["marketCapUsd_desc", "recentBuy_desc"].contains ((env.sort q).getD "undefined")

/-- The text that tells queries apart. -/
def Setup.key (env : Setup Q T) (ranked : Bool) (q : Q) : String :=
  if ranked then env.filters q else env.stringify q

/-- `Math.max(...pages.keys())`. -/
def lastPage (pages : Pages Q T R) : ℕ := pages.keys.foldr max 0

/-- What the pager shows of a page: whether there are pages on either side of it, and how many can
be reached from what is stored. -/
def result (pages : Pages Q T R) (page : ℕ) (stored : StoredPage T R) (recovered : Bool) :
    ExplorePage T R where
  items := stored.items
  page := page
  hasPrevious := page > 1
  hasNext := stored.nextCursor.isSome
  availablePages := lastPage pages +
    if ((pages.lookup (lastPage pages)).bind fun c => c.nextCursor).any (· ≠ "") then 1 else 0
  recovered := recovered
  ranking := stored.ranking

/-- The next cursor, if it is one. -/
def CursorValue.check : CursorValue → Except JsError (Option String)
  | .null => return none
  | .text s => do
    throwIf (s.length = 0 ∨ jsLength s > 8192) "invalid next cursor"
    return some s
  | .other => throwJs "invalid next cursor"

/-- `validate`, which returns the answer as the page that it is. -/
def validate (env : Setup Q T) (pages : Pages Q T R) (response : Response T R) :
    Except JsError (StoredPage T R) :=
  match response.items with
  | none => throwJs "invalid items"
  | some items => do
    throwIf (items.length > env.pageSize) "fetch returned more items than pageSize"
    let nextCursor ← response.nextCursor.check
    throwIf (items.length = 0 ∧ nextCursor.isSome) "empty page cannot have a next cursor"
    match items.mapM id with
    | none => throwJs "duplicate or invalid marketId"
    | some items =>
      throwIf (¬ (items.map env.marketId).Nodup) "duplicate or invalid marketId"
      throwIf (∃ e ∈ pages.entries, ∃ x ∈ e.2.items, env.marketId x ∈ items.map env.marketId)
        "duplicate marketId across pages"
      return ⟨items, nextCursor, response.ranking⟩

/-- The pages without some markets. -/
def strip (env : Setup Q T) (ids : List String) (pages : Pages Q T R) : Pages Q T R :=
  Table.map (fun _ c => { c with items := c.items.filter fun x => !ids.contains (env.marketId x) })
    pages

/-! ### The state -/

/-- The variables of the pager. A load is known by its number. -/
structure Pager (Q T R : Type) where
  queryKey : Option String
  queryValue : Option Q
  pages : Pages Q T R
  currentPage : ℕ
  generation : ℕ
  controller : Option ℕ
  inFlight : Option ℕ

/-- Where a load stands. -/
inductive Phase (Q T R : Type)
  /-- the first request is on its way -/
  | fetching
  /-- the second one is, and the pages are put aside; the markets that were removed since -/
  | recovering (savedPages : Pages Q T R) (removed : List String)
  /-- the request has returned or thrown, `.catch` is to come -/
  | ran (value : Except JsError (Option (ExplorePage T R)))
  /-- `.finally` is to come -/
  | caught (value : Except JsError (Option (ExplorePage T R)))
  /-- the promise is settled -/
  | settled (value : Except JsError (Option (ExplorePage T R)))

/-- The variables of a load, the pages when its request was issued, and the markets that were
removed since then. The pages that it saves are those of the pager until it puts them aside: they
are one `Map`. -/
structure Load (Q T R : Type) where
  suppliedQuery : Q
  ranked : Bool
  target : ℕ
  cursor : Option String
  seenCursors : List String
  localGeneration : ℕ
  aborted : Bool
  savedCurrentPage : ℕ
  savedQueryKey : Option String
  savedQueryValue : Option Q
  phase : Phase Q T R
  issuedPages : Pages Q T R
  removed : List String

/-- The pager and the loads that were started, each under a number of its own. -/
structure System (Q T R : Type) where
  pager : Pager Q T R
  loads : ℕ → Option (Load Q T R)
  nextLoad : ℕ

/-- A pager that has just been created. -/
def System.initial : System Q T R :=
  ⟨⟨none, none, ∅, 0, 0, none, none⟩, fun _ => none, 0⟩

/-! ### The calls -/

/-- The direction of a load. A number may not be a whole one. -/
inductive Direction
  | current
  | next
  | previous
  | number (value : Option ℤ)
deriving DecidableEq

/-- What a call returns or throws. -/
inductive Reply (T R : Type)
  | done
  | returned (value : Option (ExplorePage T R))
  | answered (value : Bool)
  | threw (e : JsError)
  /-- the promise of a load, which the call has issued or which was there -/
  | issued (load : ℕ)
  | joined (load : ℕ)
  /-- a load goes on with a second request, or its request ends -/
  | recovering
  | ran (value : Except JsError (Option (ExplorePage T R)))

/-- The load with a number changes. -/
def System.setLoad (s : System Q T R) (i : ℕ) (l : Load Q T R) : System Q T R :=
  { s with loads := Function.update s.loads i (some l) }

/-- `controller.abort()`. -/
def System.abort (s : System Q T R) (i : ℕ) : System Q T R :=
  let aborted := (s.loads i).map fun l => { l with aborted := true }
  { s with loads := Function.update s.loads i aborted }

/-- `pause`: the load that runs is aborted, and what comes back of it is not waited for. -/
def System.pause (s : System Q T R) : System Q T R :=
  let s := match s.pager.controller with
    | some i => s.abort i
    | none => s
  { s with pager := { s.pager with
    controller := none
    inFlight := none
    generation := s.pager.generation + 1 } }

/-- The pages are forgotten, and so is the load that runs. -/
def System.resetState (s : System Q T R) : System Q T R :=
  let s := s.pause
  { s with pager := { s.pager with pages := ∅, currentPage := 0 } }

/-- The query a load goes by: that of the pages, as long as only the revision is another one. -/
def System.pinned (env : Setup Q T) (s : System Q T R) (supplied : Q) (direction : Direction) : Q :=
  match s.pager.queryValue with
  | none => supplied
  | some v =>
    if (s.pager.currentPage > 1 ∨ s.pager.inFlight.isSome ∨
        (direction ≠ .current ∧ s.pager.currentPage > 0)) ∧ env.filters v = env.filters supplied
    then v else supplied

/-- The state a load of a query starts from: another query starts over. -/
def System.select (env : Setup Q T) (s : System Q T R) (q : Q) : System Q T R :=
  let nextKey := env.key (env.ranked q) q
  if s.pager.queryKey = some nextKey then s
  else
    let s := s.resetState
    { s with pager := { s.pager with queryKey := some nextKey, queryValue := some q } }

/-- A number that is no page. -/
def Direction.invalid : Direction → Bool
  | .number none => true
  | .number (some n) => n < 1 ∨ (maxSafeInteger : ℤ) < n
  | _ => false

/-- The page that a load is for. A number that is not one counts as the page zero. -/
def Direction.target (currentPage : ℕ) : Direction → ℕ
  | .number n => (n.getD 0).toNat
  | .previous => max 1 (currentPage - 1)
  | .next => currentPage + 1
  | .current => if currentPage = 0 then 1 else currentPage

/-- The cursor a page is fetched with. -/
def cursorOf (pages : Pages Q T R) (target : ℕ) : Option String :=
  if target = 1 then none else (pages.lookup (target - 1)).bind fun c => c.nextCursor

/-- Issue the first request of a load. -/
def System.issue (s : System Q T R) (suppliedQuery : Q) (ranked : Bool) (target : ℕ) :
    System Q T R :=
  let l : Load Q T R := {
    suppliedQuery, ranked, target
    cursor := cursorOf s.pager.pages target
    seenCursors := s.pager.pages.entries.filterMap fun e => e.2.nextCursor
    localGeneration := s.pager.generation
    aborted := false
    savedCurrentPage := s.pager.currentPage
    savedQueryKey := s.pager.queryKey
    savedQueryValue := s.pager.queryValue
    phase := .fetching
    issuedPages := s.pager.pages
    removed := [] }
  { pager := { s.pager with controller := some s.nextLoad, inFlight := some s.nextLoad }
    loads := Function.update s.loads s.nextLoad (some l)
    nextLoad := s.nextLoad + 1 }

/-- `load`, as far as it runs at once. -/
def System.load (env : Setup Q T) (suppliedQuery : Q) (direction : Direction) (s : System Q T R) :
    Reply T R × System Q T R :=
  let q := s.pinned env suppliedQuery direction
  let s := s.select env q
  match s.pager.inFlight with
  | some i => (.joined i, s)
  | none =>
    if direction.invalid then (.threw ⟨"invalid page number"⟩, s)
    else if direction = .previous ∧ s.pager.currentPage ≤ 1 then (.returned none, s)
    else
      let target := direction.target s.pager.currentPage
      match s.pager.pages.lookup target with
      | some cached =>
        (.returned (some (result s.pager.pages target cached.toStoredPage false)),
          { s with pager := { s.pager with currentPage := target } })
      | none =>
        if direction = .previous then (.returned none, s)
        else if target > 1 ∧ (cursorOf s.pager.pages target).getD "" = "" then
          (.threw ⟨"missing cursor for requested page"⟩, s)
        else (.issued s.nextLoad, s.issue suppliedQuery (env.ranked q) target)

/-! ### Answers -/

/-- What becomes of a request: it is answered, or fails, with the status 409 or otherwise. -/
inductive Outcome (T R : Type)
  | fulfilled (response : Response T R)
  | rejected (conflict : Bool) (e : JsError)

/-- The request of a load ends with a value. -/
def System.ran (s : System Q T R) (i : ℕ) (l : Load Q T R)
    (value : Except JsError (Option (ExplorePage T R))) : Reply T R × System Q T R :=
  (.ran value, s.setLoad i { l with phase := .ran value })

/-- `restoreSavedState`, with the pages that were put aside, if there are any. -/
def System.restoreSavedState (s : System Q T R) (l : Load Q T R)
    (savedPages : Option (Pages Q T R)) : System Q T R :=
  match savedPages with
  | none => s
  | some pages =>
    if l.localGeneration ≠ s.pager.generation then s
    else { s with pager := { s.pager with
      pages
      currentPage := l.savedCurrentPage
      queryKey := l.savedQueryKey
      queryValue := l.savedQueryValue } }

/-- The checks of an answer. -/
def checkResponse (env : Setup Q T) (pages : Pages Q T R) (seenCursors : List String)
    (response : Response T R) : Except JsError (StoredPage T R) := do
  let stored ← validate env pages response
  throwIf (∃ c ∈ stored.nextCursor, c ∈ seenCursors) "repeated cursor"
  return stored

/-- A load has an answer. Pages were put aside if it is to its second request. -/
def System.answer (env : Setup Q T) (s : System Q T R) (i : ℕ) (l : Load Q T R)
    (savedPages : Option (Pages Q T R)) (response : Response T R) : Reply T R × System Q T R :=
  let recovered := savedPages.isSome
  let responsePage := if recovered then 1 else l.target
  if l.localGeneration ≠ s.pager.generation then s.ran i l (.ok none)
  else if l.aborted then
    (s.restoreSavedState l savedPages).ran i l (.error ⟨"Directory query timed out"⟩)
  else
    match checkResponse env s.pager.pages (if recovered then [] else l.seenCursors) response with
    | .error e => (s.restoreSavedState l savedPages).ran i l (.error e)
    | .ok stored =>
      let cached : CachedPage Q T R := { stored with
        query := if recovered then some l.suppliedQuery else l.savedQueryValue
        cursor := if recovered then none else l.cursor }
      let pages := s.pager.pages.insert responsePage cached
      System.ran { s with pager := { s.pager with pages, currentPage := responsePage } } i l
        (.ok (some (result pages responsePage stored recovered)))

/-- A load puts the pages aside and issues its second request. -/
def System.recover (env : Setup Q T) (s : System Q T R) (i : ℕ) (l : Load Q T R) :
    System Q T R :=
  let queryKey := env.key l.ranked l.suppliedQuery
  let pager := { s.pager with
    pages := ∅
    currentPage := 0
    queryValue := some l.suppliedQuery
    queryKey := some queryKey }
  System.setLoad { s with pager } i { l with phase := .recovering s.pager.pages [] }

/-- The request of a load, as it goes on with what has become of it. -/
def System.resolve (env : Setup Q T) (i : ℕ) (outcome : Outcome T R) (s : System Q T R) :
    Option (Reply T R × System Q T R) := do
  let l ← s.loads i
  match l.phase, outcome with
  | .fetching, .fulfilled response => some (s.answer env i l none response)
  | .fetching, .rejected conflict e =>
    if !conflict || l.localGeneration ≠ s.pager.generation then some (s.ran i l (.error e))
    else some (.recovering, s.recover env i l)
  | .recovering saved _, .fulfilled response => some (s.answer env i l (some saved) response)
  | .recovering saved _, .rejected _ e =>
    some ((s.restoreSavedState l (some saved)).ran i l (.error e))
  | _, _ => none

/-- `.catch`. -/
def System.onCatch (i : ℕ) (s : System Q T R) : Option (System Q T R) := do
  let l ← s.loads i
  match l.phase with
  | .ran (.error e) =>
    let value := if l.localGeneration ≠ s.pager.generation then .ok none else .error e
    s.setLoad i { l with phase := .caught value }
  | .ran (.ok value) => s.setLoad i { l with phase := .caught (.ok value) }
  | _ => none

/-- `.finally`. -/
def System.onFinally (i : ℕ) (s : System Q T R) : Option (System Q T R) := do
  let l ← s.loads i
  match l.phase with
  | .caught value =>
    let s := s.setLoad i { l with phase := .settled value }
    if s.pager.controller = some i then
      some { s with pager := { s.pager with controller := none, inFlight := none } }
    else some s
  | _ => none

/-- The timer of a load, which is cleared when the load is settled. -/
def System.timeout (i : ℕ) (s : System Q T R) : Option (System Q T R) := do
  let l ← s.loads i
  match l.phase with
  | .settled _ => none
  | _ => some (s.abort i)

/-! ### The other calls -/

/-- `reset`: the pages are forgotten, and the query with them. -/
def System.reset (s : System Q T R) : System Q T R :=
  let s := s.resetState
  { s with pager := { s.pager with queryKey := none, queryValue := none } }

/-- A page is being shown that is not the first, or one is on its way. -/
def Pager.Busy (p : Pager Q T R) : Prop := p.currentPage > 1 ∨ p.inFlight.isSome

instance (p : Pager Q T R) : Decidable p.Busy := inferInstanceAs (Decidable (_ ∨ _))

/-- `refreshFirstPage`: the pager starts again, unless it is busy; the answer says whether it has.
-/
def System.refreshFirstPage (s : System Q T R) : Bool × System Q T R :=
  if s.pager.Busy then (false, s) else (true, s.reset)

/-- `adoptFirstPage`: a first page that was fetched elsewhere becomes the page of a query, unless
the pager is busy or the page is not one. -/
def System.adoptFirstPage (env : Setup Q T) (q : Q) (response : Response T R)
    (s : System Q T R) : Reply T R × System Q T R :=
  if s.pager.Busy then (.answered false, s)
  else
    match validate env (∅ : Pages Q T R) response with
    | .error e => (.threw e, s)
    | .ok stored =>
      let s := s.pause
      let cached : CachedPage Q T R := { stored with query := some q, cursor := none }
      let pager := { s.pager with
        queryKey := some (env.key (env.ranked q) q)
        queryValue := some q
        currentPage := 1
        pages := AList.insert 1 cached ∅ }
      (.answered true, { s with pager })

/-- A load takes note of a removal. -/
def Load.note (ids : List String) (l : Load Q T R) : Load Q T R :=
  { l with
    removed := l.removed ++ ids
    phase := match l.phase with
      | .recovering saved removed => .recovering saved (removed ++ ids)
      | phase => phase }

/-- `removeMarkets`: markets are taken out of every stored page, and are remembered by the loads
that still run. -/
def System.removeMarkets (env : Setup Q T) (ids : List String) (s : System Q T R) :
    System Q T R :=
  { s with
    pager := { s.pager with pages := strip env ids s.pager.pages }
    loads := fun i => (s.loads i).map (Load.note ids) }

/-! ### Runs -/

/-- What happens to the pager: its functions are called, the answers of the server come, in any
order, and the continuations of a load run after them. -/
inductive Event (Q T R : Type)
  | load (q : Q) (direction : Direction)
  | resolve (i : ℕ) (outcome : Outcome T R)
  | onCatch (i : ℕ)
  | onFinally (i : ℕ)
  | timeout (i : ℕ)
  | pause
  | reset
  | refreshFirstPage
  | adoptFirstPage (q : Q) (response : Response T R)
  | removeMarkets (ids : List String)

/-- One call, or one thing that happens to a load, if it can. -/
def System.exec (env : Setup Q T) (s : System Q T R) :
    Event Q T R → Option (Reply T R × System Q T R)
  | .load q direction => some (s.load env q direction)
  | .resolve i outcome => s.resolve env i outcome
  | .onCatch i => (s.onCatch i).map (Prod.mk .done)
  | .onFinally i => (s.onFinally i).map (Prod.mk .done)
  | .timeout i => (s.timeout i).map (Prod.mk .done)
  | .pause => some (.done, s.pause)
  | .reset => some (.done, s.reset)
  | .refreshFirstPage => some (s.refreshFirstPage.map .answered id)
  | .adoptFirstPage q response => some (s.adoptFirstPage env q response)
  | .removeMarkets ids => some (.done, s.removeMarkets env ids)

/-- A step, labelled with what has happened and what was returned. -/
def Step (env : Setup Q T) (s : System Q T R) (e : Event Q T R × Reply T R) (t : System Q T R) :
    Prop :=
  s.exec env e.1 = some (e.2, t)

end ExplorePaging

end Web

end TickerGarden
