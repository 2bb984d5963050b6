import ReviewSensei.CommentHost
import ReviewSensei.PackedCensus

/-! The session ledger's reading of the comments: pages in falling sizes, partial listings from an
anchor on, fenced reads with a sealed page size, and the inventory they are merged into. -/
namespace ReviewSensei.CommentList
open Packed (maxPaginationPages)

def pageSizes : List Nat := [100, 20, 10, 5, 1]

def fencePageSize : Nat := 100

def sinceMargin : Nat := 2

def maxItems : Nat := maxPaginationPages * 100

/-- How a request ends: with the page, as too large, or with any other failure. -/
inductive Outcome
  | answered
  | tooLarge
  | refused
  deriving DecidableEq

/-- One request: what others do before it is answered, and the size hint of the transport. -/
structure Turn where
  moves : List Move
  hint : Nat
  outcome : Outcome

/-- A complete listing, with the host at its first and at its last page. -/
structure Listed where
  items : List Comment
  first : Host
  last : Host

/-- What an enumeration leaves, also when it fails. -/
structure Fetched where
  result : Except String Listed
  host : Host
  fenceSize : Nat

def unavailable : String := "partition metadata enumeration is unavailable"

def exceeded : String := "partition metadata enumeration exceeds item bound"

def requestFailed : String := "session ledger request failed"

/-- The first size, from an index on, that the hint allows and that divides what was read. -/
def hintedIndex (index hint count : Nat) : Nat :=
  ((List.range pageSizes.length).find? (fun i =>
    decide (index ≤ i) && decide (pageSizes.getD i 1 ≤ hint) &&
      count % pageSizes.getD i 1 == 0)).getD index

/-- The largest size that divides what was read. -/
def steppedIndex (count : Nat) : Nat :=
  ((List.range pageSizes.length).find? (fun i => count % pageSizes.getD i 1 == 0)).getD 0

/-- The loop of `_fetch_pages` and of `_history_pages`: the latter has a limit on its requests,
and neither changes the size of a fence once that is sealed. -/
def fetchPages (since : Option Nat) (fixed : Bool) : List Turn → Host → (first : Option Host) →
    (collected : List Comment) → (index : Nat) → (limit : Option Nat) → (fence : Nat) → Fetched
  | [], h, _, _, _, limit, fence =>
    ⟨.error (if limit = some 0 then exceeded else requestFailed), h, fence⟩
  | t :: turns, h, first, collected, index, limit, fence =>
    let index := hintedIndex index t.hint collected.length
    let size := pageSizes.getD index 1
    if maxItems < collected.length ∨ limit = some 0 then ⟨.error exceeded, h, fence⟩
    else if collected.length % size ≠ 0 then ⟨.error unavailable, h, fence⟩
    else
      let h := h.moves t.moves
      let limit := limit.map (· - 1)
      match t.outcome with
      | .refused => ⟨.error requestFailed, h, fence⟩
      | .tooLarge =>
        if pageSizes.length ≤ index + 1 then ⟨.error unavailable, h, fence⟩
        else fetchPages since fixed turns h first collected (index + 1) limit fence
      | .answered =>
        let rows := h.page since collected.length size
        let fence := if fixed then fence else min fence size
        let collected := collected ++ rows
        if rows.length < size then ⟨.ok ⟨collected, first.getD h, h⟩, h, fence⟩
        else if maxItems ≤ collected.length then ⟨.error exceeded, h, fence⟩
        else
          fetchPages since fixed turns h (some (first.getD h)) collected
            (steppedIndex collected.length) limit fence

/-- The loop of `_fence_scan`, over the pages of one size. -/
def fenceScan (since : Option Nat) (size : Nat) : (pages : Nat) → List Turn → Host →
    (first : Option Host) → (collected : List Comment) → (read : Nat) → Fetched
  | 0, _, h, _, _, _ => ⟨.error exceeded, h, size⟩
  | _ + 1, [], h, _, _, _ => ⟨.error requestFailed, h, size⟩
  | pages + 1, t :: turns, h, first, collected, read =>
    let h := h.moves t.moves
    if t.outcome ≠ .answered then ⟨.error requestFailed, h, size⟩
    else
      let rows := h.page since (read * size) size
      let collected := collected ++ rows
      if rows.length < size then ⟨.ok ⟨collected, first.getD h, h⟩, h, size⟩
      else fenceScan since size pages turns h (some (first.getD h)) collected (read + 1)

/-- Another reader's listing of everything: pages of any sizes, up to the first that is not full. -/
def listAll : List (List Move × Nat) → Host → (first : Option Host) → (collected : List Comment) →
    Option Listed × Host
  | [], h, _, _ => (none, h)
  | (moves, size) :: pages, h, first, collected =>
    let h := h.moves moves
    let rows := h.page none collected.length size
    let collected := collected ++ rows
    if rows.length < size then (some ⟨collected, first.getD h, h⟩, h)
    else listAll pages h (some (first.getD h)) collected

section Inventory

/-- `_store_comment`: a known comment keeps its place, and a verified part its body. -/
def store (verified : List Nat) (cache : List Comment) (item : Comment) :
    Except String (List Comment) :=
  match cache.find? (fun c => c.id == item.id) with
  | some previous =>
    if previous.body ≠ item.body ∧ item.id ∈ verified then .error "GitHub partition changed"
    else .ok (cache.map (fun c => if c.id = item.id then item else c))
  | none => .ok (cache ++ [item])

/-- `_merge_comments`: what was stored before an error stays. -/
def merge (verified : List Nat) : List Comment → (cache : List Comment) →
    Except String Unit × List Comment
  | [], cache => (.ok (), cache)
  | item :: items, cache =>
    match store verified cache item with
    | .error e => (.error e, cache)
    | .ok cache => merge verified items cache

def newest (items : List Comment) : Option Nat := (items.map Comment.updatedAt).max?

/-- `_note_anchor`: the newest stamp, moved back, unless the anchor is later already. -/
def noteAnchor (anchor : Option Nat) (items : List Comment) : Option Nat :=
  match newest items with
  | none => anchor
  | some stamp => some (max (anchor.getD 0) (stamp - sinceMargin))

end Inventory

/-- The phases of a prepaid activation, while its ticket is live. -/
inductive TailPhase
  | validate
  | reload
  | activate
  | readback
  deriving DecidableEq

/-- What a ledger keeps of its reads, with the listing another reader may have left for it. -/
structure Ledger where
  cache : List Comment
  complete : Bool
  refresh : Bool
  anchor : Option Nat
  fenceAnchor : Option Nat
  fenceSize : Nat
  scanPages : Option Nat
  tail : Option TailPhase
  history : Bool
  verified : List Nat
  primed : Option (List Comment)

def Ledger.initial : Ledger where
  cache := []
  complete := false
  refresh := true
  anchor := none
  fenceAnchor := none
  fenceSize := fencePageSize
  scanPages := none
  tail := none
  history := false
  verified := []
  primed := none

/-- One call: its answer, the ledger and the host after it, and the listing it completed. -/
structure Read where
  result : Except String (List Comment)
  ledger : Ledger
  host : Host
  listed : Option Listed
  queried : Bool

namespace Ledger
variable (l : Ledger)

def pages : Nat := l.scanPages.getD 1

/-- `_fencing`. -/
def fencing : Bool := l.tail = some .reload || l.tail = some .readback

/-- Items are merged and the anchor is moved; a part that changed stops both. -/
def absorb (items : List Comment) : Except String (List Comment) × Ledger :=
  match merge l.verified items l.cache with
  | (.error e, cache) => (.error e, { l with cache })
  | (.ok (), cache) => (.ok cache, { l with cache, anchor := noteAnchor l.anchor items })

/-- Items replace the inventory, which is complete then. -/
def replaceInventory (items : List Comment) : Except String (List Comment) × Ledger :=
  match merge l.verified items [] with
  | (.error e, cache) => (.error e, { l with cache })
  | (.ok (), cache) =>
    (.ok cache, { l with cache, complete := true, anchor := noteAnchor l.anchor items })

/-- A listing that was read is merged, or not at all. -/
def finish (f : Fetched) (use : Ledger → List Comment → Except String (List Comment) × Ledger) :
    Read :=
  let l := { l with fenceSize := f.fenceSize }
  match f.result with
  | .error e => ⟨.error e, l, f.host, none, true⟩
  | .ok listed =>
    let used := use l listed.items
    ⟨used.1, used.2, f.host, some listed, true⟩

/-- The turns of `_fetch_pages`, from the start. -/
def fetch (since : Option Nat) (h : Host) (turns : List Turn) : Fetched :=
  fetchPages since l.tail.isSome turns h none [] 0 none l.fenceSize

/-- `_bounded_comments`. -/
def read (h : Host) (turns : List Turn) : Read :=
  if l.history then
    let f := fetchPages none true turns h none [] 0 (some l.pages) l.fenceSize
    ⟨f.result.map Listed.items, l, f.host, none, true⟩
  else if l.fencing then
    l.finish (fenceScan l.fenceAnchor l.fenceSize l.pages turns h none [] 0) absorb
  else if l.complete && !l.refresh then ⟨.ok l.cache, l, h, none, false⟩
  else
    let fresh : Ledger := { l with refresh := false }
    if l.complete && l.anchor.isSome then fresh.finish (l.fetch l.anchor h turns) absorb
    else
      match l.primed with
      | some items =>
        let used := { fresh with primed := none }.replaceInventory items
        ⟨used.1, used.2, h, none, false⟩
      | none => fresh.finish (l.fetch none h turns) replaceInventory

end Ledger

/-- What happens around one ledger, in any order. -/
inductive Event
  | moves (ms : List Move)
  | refresh
  | read (turns : List Turn)
  | prime (pages : List (List Move × Nat))
  | verify (ids : List Nat)
  | history (limit : Option Nat)
  | beginTail (pages : Nat)
  | enterPhase (phase : TailPhase)
  | endTail

structure State where
  ledger : Ledger
  host : Host

namespace State
variable (s : State)

/-- The listing an event completes and uses for an anchor: a read of the ledger, or one that is
left for it. -/
def listed : Event → Option Listed
  | .read turns => (s.ledger.read s.host turns).listed
  | .prime pages => (listAll pages s.host none []).1
  | _ => none

def step : Event → State
  | .moves ms => ⟨s.ledger, s.host.moves ms⟩
  | .refresh => ⟨{ s.ledger with refresh := true }, s.host⟩
  | .read turns =>
    let r := s.ledger.read s.host turns
    ⟨r.ledger, r.host⟩
  | .prime pages =>
    let listing := listAll pages s.host none []
    ⟨{ s.ledger with primed := (listing.1.map Listed.items).or s.ledger.primed }, listing.2⟩
  | .verify ids => ⟨{ s.ledger with verified := ids }, s.host⟩
  | .history limit =>
    ⟨{ s.ledger with history := limit.isSome, scanPages := limit.or s.ledger.scanPages }, s.host⟩
  -- an activation begins after a discovery, so with a complete inventory
  | .beginTail pages =>
    if s.ledger.complete then
      ⟨{ s.ledger with
        fenceAnchor := s.ledger.anchor, scanPages := some pages, tail := some .validate }, s.host⟩
    else s
  | .enterPhase phase =>
    if s.ledger.tail.isSome then ⟨{ s.ledger with tail := some phase }, s.host⟩ else s
  | .endTail => ⟨{ s.ledger with tail := none, scanPages := none }, s.host⟩

def run (events : List Event) : State := events.foldl State.step s

end State

end ReviewSensei.CommentList
