import AbiRecovery.Json.Basic
import AbiRecovery.Recipe.Step

/-!
# Writing recipes

A draft is a value that tells of its texts where they come from. Equal texts from one source are the
same text: the recipe builds it once, keeps it aside and recalls it. Texts of at most one symbol up to
U+00FF are always the same. Containers are never shared.

Many items are added to a container in batches. The bytes of the steps go into frames, which end at the
first value after 64 KiB; a text of that length stands in no frame.
-/
namespace AbiRecovery.Recipe

/-- Where a text comes from. -/
inductive Origin where
  /-- From the program itself. -/
  | program
  /-- From the names in a document. -/
  | document
  /-- From a source of its own, so it is the same as no other text. -/
  | own
  deriving DecidableEq, Repr

/-- A value whose texts have origins. -/
inductive Draft where
  | null
  | bool (value : Bool)
  | int (value : Int)
  | float (value : Decimal.Binary64)
  | text (origin : Origin) (value : Text)
  | list (items : List Draft)
  | object (members : List ((Origin × Text) × Draft))
  deriving Inhabited

mutual

/-- The draft of a value from a document, where only names are shared. -/
def Draft.ofJson : Json → Draft
  | .null => .null
  | .bool value => .bool value
  | .int value => .int value
  | .float value => .float value
  | .str value => .text .own value
  | .arr items => .list (draftItems items)
  | .obj members => .object (draftMembers members)

def draftItems : List Json → List Draft
  | [] => []
  | item :: items => .ofJson item :: draftItems items

def draftMembers : List (Text × Json) → List ((Origin × Text) × Draft)
  | [] => []
  | (key, value) :: members => ((.document, key), .ofJson value) :: draftMembers members

end

mutual

def Draft.toJson : Draft → Json
  | .null => .null
  | .bool value => .bool value
  | .int value => .int value
  | .float value => .float value
  | .text _ value => .str value
  | .list items => .arr (jsonItems items)
  | .object members => .obj (jsonMembers members)

def jsonItems : List Draft → List Json
  | [] => []
  | item :: items => item.toJson :: jsonItems items

def jsonMembers : List ((Origin × Text) × Draft) → List (Text × Json)
  | [] => []
  | ((_, key), value) :: members => (key, value.toJson) :: jsonMembers members

end

mutual

/-- The draft of a value is a draft of that value. -/
@[simp]
theorem Draft.toJson_ofJson : (value : Json) → (Draft.ofJson value).toJson = value
  | .null | .bool _ | .int _ | .float _ | .str _ => rfl
  | .arr items => by rw [Draft.ofJson, Draft.toJson, jsonItems_draftItems items]
  | .obj members => by rw [Draft.ofJson, Draft.toJson, jsonMembers_draftMembers members]

/-- The drafts of items are drafts of those items. -/
@[simp]
theorem jsonItems_draftItems : (items : List Json) → jsonItems (draftItems items) = items
  | [] => rfl
  | item :: items => by rw [draftItems, jsonItems, Draft.toJson_ofJson item, jsonItems_draftItems items]

/-- The drafts of members are drafts of those members. -/
@[simp]
theorem jsonMembers_draftMembers : (members : List (Text × Json)) → jsonMembers (draftMembers members) = members
  | [] => rfl
  | (_, value) :: members => by
    rw [draftMembers, jsonMembers, Draft.toJson_ofJson value, jsonMembers_draftMembers members]

end

/-- What a recipe has kept aside so far. -/
structure Kept where
  texts : OrderedMap (Origin × Text) Nat
  count : Nat

namespace Kept

def none : Kept := ⟨[], 0⟩

/-- What has been kept aside with one thing more that is never recalled. -/
def more (kept : Kept) : Kept := { kept with count := kept.count + 1 }

end Kept

/-- Whether a text is the same wherever it comes from. -/
def isShort : Text → Bool
  | [] => true
  | [symbol] => symbol.toNat < 0x100
  | _ => false

/-- The origin that counts when two texts are compared. -/
def countedOrigin (origin : Origin) (t : Text) : Origin := if isShort t then .program else origin

def textSteps (origin : Origin) (t : Text) (kept : Kept) : Kept × List Step :=
  let key := (countedOrigin origin t, t)
  if key.1 = .own then (kept.more, [.text t, .keep])
  else match OrderedMap.get? kept.texts key with
    | some place => (kept, [.again place])
    | none => (⟨OrderedMap.insert kept.texts key kept.count, kept.count + 1⟩, [.text t, .keep])

def batchSize : Nat := 1000

/-- Batches of items, given by their steps; `all` adds a batch. A full batch is followed by another one,
even an empty one, if `closed` does not say otherwise. -/
def batches (closed : Bool) (all : Step) : (missing : Nat) → List (List Step) → List Step
  | _, [] => [all]
  | 0, item :: items =>
    all :: .mark :: item ++ batches closed all (batchSize - 1) items
  | missing + 1, item :: items =>
    item ++ if missing = 0 && items.isEmpty && !closed then [all, .mark, all] else batches closed all missing items

/-- The steps that fill a container with items, given by their steps. -/
def fill (closed : Bool) (one all : Step) : List (List Step) → List Step
  | [] => []
  | [item] => item ++ [one]
  | items => .mark :: batches closed all batchSize items

mutual

def Draft.steps : Draft → Kept → Kept × List Step
  | .null, kept => (kept, [.null])
  | .bool value, kept => (kept, [.bool value])
  | .int value, kept => (kept, [.int value])
  | .float value, kept => (kept, [.float value])
  | .text origin value, kept => textSteps origin value kept
  | .list items, kept =>
    let (kept, items) := itemSteps items kept.more
    (kept, .list :: .keep :: fill true .append .appendAll items)
  | .object members, kept =>
    let (kept, members) := memberSteps members kept.more
    (kept, .object :: .keep :: fill false .put .putAll members)

def itemSteps : List Draft → Kept → Kept × List (List Step)
  | [], kept => (kept, [])
  | item :: items, kept =>
    let (kept, steps) := item.steps kept
    let (kept, more) := itemSteps items kept
    (kept, steps :: more)

/-- The steps for the key and the value of each of several members. -/
def memberSteps : List ((Origin × Text) × Draft) → Kept → Kept × List (List Step)
  | [], kept => (kept, [])
  | (key, value) :: members, kept =>
    let (kept, keySteps) := textSteps key.1 key.2 kept
    let (kept, steps) := value.steps kept
    let (kept, more) := memberSteps members kept
    (kept, (keySteps ++ steps) :: more)

end

def Step.beginsValue : Step → Bool
  | .null | .bool _ | .int _ | .float _ | .text _ | .again _ | .list | .object => true
  | .version _ | .frame _ | .keep | .mark | .append | .appendAll | .put | .putAll | .stop => false

/-- The size at which a frame ends, and the least size of a text that stands in no frame. -/
def frameSize : Nat := 0x10000

/-- Bytes that are being put into frames. -/
structure Framing where
  /-- The pieces before the open frame, last first. -/
  done : List Bytes
  /-- The pieces of the open frame, last first. -/
  inside : List Bytes
  /-- The size of the open frame. -/
  size : Nat

namespace Framing

def start : Framing := ⟨[], [], 0⟩

/-- Ends the open frame. Of less than four bytes there is no frame. -/
def close (f : Framing) : Framing :=
  ⟨f.inside ++ (if f.size < 4 then f.done else (Step.frame f.size).bytes :: f.done), [], 0⟩

def add (f : Framing) (step : Step) : Framing :=
  let f := if step.beginsValue && frameSize ≤ f.size then f.close else f
  let bytes := step.bytes
  let long : Bool := match step with
    | .text t => frameSize ≤ (Text.encodeWide t).length
    | _ => false
  if long then { f.close with done := bytes :: f.close.done }
  else ⟨f.done, bytes :: f.inside, f.size + bytes.length⟩

def bytes (f : Framing) : Bytes := f.close.done.reverse.flatten

end Framing

def versionNumber : Nat := 5

def Draft.bytes (d : Draft) : Bytes :=
  let steps := (d.steps .none).2 ++ [.stop]
  (Step.version versionNumber).bytes ++ (steps.foldl Framing.add .start).bytes

end AbiRecovery.Recipe
