import CompiledScript.Proofs.Listing.Code
import CompiledScript.Proofs.Verification

/-!
# The blocks of a listing

A listing goes through the blocks that a container owns, and through the literals in
the pool of each block down to the blocks in them.  Only the values that parameters
fall back to are left out: of an optional parameter the name is listed with a mark.

Whatever the options are, a listing is put together from the same parts.  A part is
either plain text or the place of a block, where the headline of the block stands
with the lines of its code after it.  The options decide on these lines and on
nothing else, so that a listing without code is the listing with code less exactly
the lines of the blocks.
-/

set_option autoImplicit false

namespace CompiledScript

/-! ## What is listed -/

namespace Literal

/-- The literals one level below a literal that are listed with it: all but the values that
parameters fall back to. -/
def listedChildren : Literal → List Literal
  | closure _ _ body => body.literals
  | literal => literal.children

theorem mem_children_of_listed {literal child : Literal} (below : child ∈ literal.listedChildren) :
    child ∈ literal.children := by
  cases literal with
  | closure scope parameters body => exact pooled_mem_children below
  | _ => exact below

/-- A block is listed with a literal, as its body or with a listed literal below it. -/
inductive Lists : Literal → Block → Prop where
  | body {literal : Literal} {block : Block} (own : literal.body? = some block) :
      Lists literal block
  | inside {literal child : Literal} {block : Block} (below : child ∈ literal.listedChildren)
      (lists : Lists child block) : Lists literal block

/-- The blocks that are listed with a literal, in the order of the listing. -/
def listedBlocks (literal : Literal) : List Block :=
  literal.body?.toList ++ literal.listedChildren.attach.flatMap fun child => child.1.listedBlocks
termination_by sizeOf literal
decreasing_by exact sizeOf_child_lt (mem_children_of_listed child.2)

theorem listedBlocks_eq (literal : Literal) :
    literal.listedBlocks =
      literal.body?.toList ++ literal.listedChildren.flatMap listedBlocks := by
  rw [listedBlocks, List.flatMap_def, List.attach_map_val (f := listedBlocks), ← List.flatMap_def]

theorem lists_of_mem {literal : Literal} {block : Block} (found : block ∈ literal.listedBlocks) :
    literal.Lists block := by
  rw [listedBlocks_eq] at found
  rcases List.mem_append.mp found with own | inside
  · exact .body (Option.mem_toList.mp own)
  · obtain ⟨child, below, found⟩ := List.mem_flatMap.mp inside
    exact .inside below (lists_of_mem found)
termination_by sizeOf literal
decreasing_by exact sizeOf_child_lt (mem_children_of_listed below)

theorem mem_listedBlocks {literal : Literal} {block : Block} :
    block ∈ literal.listedBlocks ↔ literal.Lists block := by
  refine ⟨lists_of_mem, fun lists => ?_⟩
  induction lists with
  | body own =>
    rw [listedBlocks_eq]
    exact List.mem_append_left _ (Option.mem_toList.mpr own)
  | inside below _ ih =>
    rw [listedBlocks_eq]
    exact List.mem_append_right _ (List.mem_flatMap.mpr ⟨_, below, ih⟩)

end Literal

/-- A block with the blocks that are listed with its pool, in the order of the listing. -/
def Block.listedBlocks (block : Block) : List Block :=
  block :: block.literals.flatMap Literal.listedBlocks

namespace Container

/-- A block is listed with a container: it is owned, or it is listed with the pool of an owned
one. -/
def Lists (container : Container) (block : Block) : Prop :=
  ∃ owner owned, (owner, owned) ∈ container.ownedBlocks ∧
    (block = owned ∨ ∃ literal ∈ owned.literals, literal.Lists block)

/-- The blocks that are listed with a container, in the order of the listing. -/
def listedBlocks (container : Container) : List Block :=
  container.ownedBlocks.flatMap fun (_, block) => block.listedBlocks

theorem mem_listedBlocks {container : Container} {block : Block} :
    block ∈ container.listedBlocks ↔ container.Lists block := by
  simp only [listedBlocks, Lists, Block.listedBlocks, List.mem_flatMap, List.mem_cons,
    Literal.mem_listedBlocks, Prod.exists]

theorem listedBlocks_eq (container : Container) :
    container.listedBlocks =
      container.top.listedBlocks ++
        container.procedures.flatMap (fun entry => entry.body.listedBlocks) ++
          container.methods.flatMap fun entry => entry.body.listedBlocks := by
  simp only [listedBlocks, ownedBlocks, List.flatMap_append, List.flatMap_cons, List.flatMap_map]

end Container

namespace Listing

/-! ## Parts -/

/-- The line in front of the code of a block. -/
def headline (depth : Nat) (block : Block) : String :=
  let locals := block.localCount
  indentation depth ++
    s!"block code={block.code.length} stack={block.maxStack.toNat} locals={locals.toNat}\n"

/-- A part of a listing that the options do not decide on. -/
inductive Part where
  | plain (text : String)
  /-- The place of a block, at a depth. -/
  | block (depth : Nat) (block : Block)

/-- The block that has its place in a part. -/
def Part.block? : Part → Option Block
  | plain _ => none
  | block _ placed => some placed

/-- The pieces of a part when the lines of code at a depth are the given ones. -/
def Part.pieces (lines : Nat → Bytes → List Piece) : Part → List Piece
  | plain text => [.plain text]
  | block depth placed => .plain (headline depth placed) :: lines (depth + 1) placed.code

/-- What is listed is put together from parts that do not depend on the options, and the blocks in
them are the given ones, in order. -/
def Arranges (listed : ListingOptions → List Piece) (blocks : List Block) : Prop :=
  ∃ parts : List Part, (∀ options, listed options = parts.flatMap (Part.pieces (ofCode options))) ∧
    parts.filterMap Part.block? = blocks

namespace Arranges

variable {front behind : ListingOptions → List Piece} {blocks further : List Block}

theorem nil : Arranges (fun _ => []) [] := ⟨[], fun _ => rfl, rfl⟩

theorem cons (text : String) (arranges : Arranges behind blocks) :
    Arranges (fun options => .plain text :: behind options) blocks := by
  obtain ⟨parts, same, listed⟩ := arranges
  refine ⟨.plain text :: parts, fun options => ?_, listed⟩
  simp only [same, List.flatMap_cons, Part.pieces, List.singleton_append]

theorem block (depth : Nat) (block : Block) (arranges : Arranges behind blocks) :
    Arranges (fun options => .plain (headline depth block) ::
      ofCode options (depth + 1) block.code ++ behind options) (block :: blocks) := by
  obtain ⟨parts, same, listed⟩ := arranges
  refine ⟨.block depth block :: parts, fun options => ?_, ?_⟩
  · simp only [same, List.flatMap_cons, Part.pieces]
  · simp only [List.filterMap_cons, Part.block?, listed]

theorem append (first : Arranges front blocks) (second : Arranges behind further) :
    Arranges (fun options => front options ++ behind options) (blocks ++ further) := by
  obtain ⟨parts, same, rfl⟩ := first
  obtain ⟨others, alike, rfl⟩ := second
  refine ⟨parts ++ others, fun options => ?_, List.filterMap_append⟩
  simp only [same, alike, List.flatMap_append]

/-- Text alone has no block in it. -/
theorem texts {Item : Type} (text : Item → String) (items : List Item) :
    Arranges (fun _ => items.map fun item => .plain (text item)) [] := by
  induction items with
  | nil => exact .nil
  | cons item items ih => exact ih.cons (text item)

theorem flatMap {Item : Type} {listed : ListingOptions → Item → List Piece}
    {blocks : Item → List Block} {items : List Item}
    (each : ∀ item ∈ items, Arranges (fun options => listed options item) (blocks item)) :
    Arranges (fun options => items.flatMap (listed options)) (items.flatMap blocks) := by
  induction items with
  | nil => exact .nil
  | cons item items ih =>
    have first := each item List.mem_cons_self
    have rest := ih fun other found => each other (List.mem_cons_of_mem item found)
    exact first.append rest

end Arranges

/-! ## Literals and blocks -/

/-- The listing of a literal is put together from its listed blocks, whatever its depth. -/
def Arranged (literal : Literal) : Prop :=
  ∀ depth, Arranges (fun options => ofLiteral options depth literal) literal.listedBlocks

theorem arranges_ofItems {items : List Literal} (arranged : ∀ item ∈ items, Arranged item)
    (depth : Nat) (separator : String) :
    Arranges (fun options => ofItems options depth separator items)
      (items.flatMap Literal.listedBlocks) := by
  induction items generalizing separator with
  | nil =>
    simp only [ofItems]
    exact .nil
  | cons item items ih =>
    have first := arranged item List.mem_cons_self depth
    have rest := ih (fun other found => arranged other (List.mem_cons_of_mem item found)) ", "
    simp only [ofItems]
    exact (first.append rest).cons separator

theorem arranges_ofEntries {entries : List MapEntry}
    (arranged : ∀ entry ∈ entries, Arranged entry.key ∧ Arranged entry.value)
    (depth : Nat) (separator : String) :
    Arranges (fun options => ofEntries options depth separator entries)
      ((entries.flatMap fun entry => [entry.key, entry.value]).flatMap Literal.listedBlocks) := by
  induction entries generalizing separator with
  | nil =>
    simp only [ofEntries]
    exact .nil
  | cons entry entries ih =>
    have first := arranged entry List.mem_cons_self
    have rest := ih (fun other found => arranged other (List.mem_cons_of_mem entry found)) ", "
    obtain ⟨key, value⟩ := entry
    simp only [ofEntries, List.append_assoc]
    exact ((first.1 depth).append (((first.2 depth).append rest).cons ": ")).cons separator

theorem arranges_ofPool {literals : List Literal}
    (arranged : ∀ literal ∈ literals, Arranged literal) (depth number : Nat) :
    Arranges (fun options => ofPool options depth number literals)
      (literals.flatMap Literal.listedBlocks) := by
  induction literals generalizing number with
  | nil =>
    simp only [ofPool]
    exact .nil
  | cons literal literals ih =>
    have first := arranged literal List.mem_cons_self (depth + 2)
    have rest := ih (fun other found => arranged other (List.mem_cons_of_mem literal found))
      (number + 1)
    simp only [ofPool]
    exact (first.append (rest.cons "\n")).cons _

theorem arranges_ofTables (depth : Nat) (auxiliaries : List Auxiliary)
    (exceptions : List ExceptionRange) :
    Arranges (fun _ => ofTables depth auxiliaries exceptions) [] :=
  (Arranges.texts _ auxiliaries.zipIdx).append (.texts _ exceptions.zipIdx)

theorem ofBlock_eq (options : ListingOptions) (depth : Nat) (block : Block) :
    ofBlock options depth block =
      .plain (headline depth block) :: ofCode options (depth + 1) block.code ++
        (ofPool options depth 0 block.literals ++
          ofTables depth block.auxiliaries block.exceptions) := by
  cases block with
  | mk code literals auxiliaries exceptions maxStack compiledLocals localTable =>
    rw [ofBlock, List.append_assoc]
    rfl

theorem arranges_ofBlock_of_pool {block : Block}
    (arranged : ∀ literal ∈ block.literals, Arranged literal) (depth : Nat) :
    Arranges (fun options => ofBlock options depth block) block.listedBlocks := by
  have pool := arranges_ofPool arranged depth 0
  have tables := arranges_ofTables depth block.auxiliaries block.exceptions
  have whole := (pool.append tables).block depth block
  rw [List.append_nil] at whole
  simp only [ofBlock_eq]
  exact whole

/-- A literal is put together from the literals one level below it. -/
theorem arranged (literal : Literal) : Arranged literal := by
  intro depth
  -- By induction on the size, as the literals in a pool are smaller than the literal around it.
  have below : ∀ child ∈ literal.listedChildren, Arranged child :=
    fun child found => arranged child
  rw [Literal.listedBlocks_eq]
  cases literal with
  | map entries =>
    have pairs : ∀ entry ∈ entries, Arranged entry.key ∧ Arranged entry.value := fun entry found =>
      ⟨below _ (Literal.key_mem_children found), below _ (Literal.value_mem_children found)⟩
    have inside := (arranges_ofEntries pairs depth "").append (Arranges.nil.cons "\x7d")
    rw [List.append_nil] at inside
    simp only [ofLiteral]
    exact inside.cons "map \x7b"
  | list items =>
    have inside := (arranges_ofItems below depth "").append (Arranges.nil.cons "]")
    rw [List.append_nil] at inside
    simp only [ofLiteral]
    exact inside.cons "list ["
  | closure scope parameters body =>
    simp only [ofLiteral]
    exact (arranges_ofBlock_of_pool below depth).cons _
  | block scope body =>
    simp only [ofLiteral]
    exact (arranges_ofBlock_of_pool below depth).cons _
  | int _ | bigInt _ | boolean _ | bytes _ | double _ | text _ =>
    simp only [ofLiteral]
    exact Arranges.nil.cons _
termination_by sizeOf literal
decreasing_by exact Literal.sizeOf_child_lt (Literal.mem_children_of_listed found)

theorem arranges_ofBlock (depth : Nat) (block : Block) :
    Arranges (fun options => ofBlock options depth block) block.listedBlocks :=
  arranges_ofBlock_of_pool (fun literal _ => arranged literal) depth

/-! ## Containers -/

/-- The listing of a container is put together from its listed blocks. -/
theorem arranges_pieces (container : Container) :
    Arranges (fun options => pieces options container) container.listedBlocks := by
  have top := ((arranges_ofBlock 1 container.top).cons "top\n").cons (ofHeader container)
  have procedure (entry : ProcedureEntry) :
      Arranges (fun options => ofProcedure options entry) entry.body.listedBlocks :=
    (arranges_ofBlock 2 entry.body).cons _
  have method (entry : MethodEntry) :
      Arranges (fun options => ofMethod options entry) entry.body.listedBlocks :=
    (arranges_ofBlock 2 entry.body).cons _
  have procedures := Arranges.flatMap fun entry (_ : entry ∈ container.procedures) =>
    procedure entry
  have classes := Arranges.texts (fun entry => s!"  class {entry.name}\n") container.classes
  have methods := Arranges.flatMap fun entry (_ : entry ∈ container.methods) => method entry
  have whole :=
    ((top.append (procedures.cons s!"procedures ({container.procedures.length})\n")).append
      (classes.cons s!"classes ({container.classes.length})\n")).append
        (methods.cons s!"methods ({container.methods.length})\n")
  rw [List.append_nil] at whole
  rw [Container.listedBlocks_eq]
  exact whole

/-- The text of a listing is that of its parts. -/
theorem listing_of_parts {container : Container} {parts : List Part}
    (same : ∀ options, pieces options container = parts.flatMap (Part.pieces (ofCode options)))
    (options : ListingOptions) :
    container.listing options =
      String.join ((parts.flatMap (Part.pieces (ofCode options))).map Piece.text) := by
  rw [Container.listing, same]

end Listing

/-- **A listing loses no code.**  It is put together from parts that do not depend on the options.
The blocks that have their places in the parts are, in order, those that the container owns with
those in their pools, at any depth but for the values that parameters fall back to.  With code, the
text has behind the headline of each block the lines that show its code, from which the code is read
back; with the code left out, the text is the same less exactly these lines. -/
theorem listing_keeps_code (container : Container) :
    ∃ parts : List Listing.Part,
      parts.filterMap Listing.Part.block? = container.listedBlocks ∧
      (∀ block, block ∈ container.listedBlocks ↔ container.Lists block) ∧
      ∀ bytesPerLine, ∃ lines : Nat → Bytes → List Listing.Piece,
        Listing.pieces ⟨true, bytesPerLine⟩ container =
          parts.flatMap (Listing.Part.pieces lines) ∧
        (∀ indent code,
          Listing.ShowsCode (max bytesPerLine 1) indent code (lines indent code)) ∧
        container.listing ⟨true, bytesPerLine⟩ =
          String.join ((parts.flatMap (Listing.Part.pieces lines)).map Listing.Piece.text) ∧
        container.listing ⟨false, bytesPerLine⟩ =
          String.join
            ((parts.flatMap (Listing.Part.pieces fun _ _ => [])).map Listing.Piece.text) := by
  obtain ⟨parts, same, listed⟩ := Listing.arranges_pieces container
  refine ⟨parts, listed, fun _ => Container.mem_listedBlocks, fun bytesPerLine => ?_⟩
  refine ⟨Listing.ofCode ⟨true, bytesPerLine⟩, same _, ?_, ?_, ?_⟩
  · exact Listing.showsCode_ofCode bytesPerLine
  · exact Listing.listing_of_parts same _
  · exact Listing.listing_of_parts same _

/-! ### A value to fall back to -/

/-- A container with a lambda in the pool of its top block that has one parameter, which falls back
to a block with the given code. -/
def Container.fallingBackTo (code : Bytes) : Container :=
  { header :=
      ⟨containerMagic, formatVersion, ⟨1, 0⟩, 0, 0, 0, 1, 0, 0, 0⟩
    top :=
      { Block.empty with
        literals :=
          [.closure "::" [⟨"f", some (.block "::" { Block.empty with code })⟩] Block.empty] }
    procedures := []
    classes := []
    methods := [] }

/-- The container holds a block with code, and its listing has no line of code: it is the listing
without code, and the listing of a container with other code in the block. -/
theorem listing_omits_fallbacks :
    (∃ block, (Container.fallingBackTo [0xde, 0xad]).Holds block ∧ block.code = [0xde, 0xad]) ∧
      Listing.pieces ⟨true, 16⟩ (Container.fallingBackTo [0xde, 0xad]) =
        Listing.pieces ⟨false, 16⟩ (Container.fallingBackTo [0xde, 0xad]) ∧
      (Container.fallingBackTo [0xde, 0xad]).listing ⟨true, 16⟩ =
        (Container.fallingBackTo [0xde, 0xad]).listing ⟨false, 16⟩ ∧
      (Container.fallingBackTo [0xde, 0xad]).listing ⟨true, 16⟩ =
        (Container.fallingBackTo [0xbe, 0xef]).listing ⟨true, 16⟩ := by
  have held : (Literal.block "::" { Block.empty with code := [0xde, 0xad] }).Holds
      { Block.empty with code := [0xde, 0xad] } := .body rfl
  have pooled : Block.Pools (Container.fallingBackTo [0xde, 0xad]).top
      { Block.empty with code := [0xde, 0xad] } :=
    ⟨_, List.mem_singleton_self _, .inside List.mem_cons_self held⟩
  have same : Listing.pieces ⟨true, 16⟩ (Container.fallingBackTo [0xde, 0xad]) =
      Listing.pieces ⟨false, 16⟩ (Container.fallingBackTo [0xde, 0xad]) := by
    decide +kernel
  refine ⟨⟨_, ⟨.topLevel, _, List.mem_cons_self, .inr pooled⟩, rfl⟩, same, ?_, ?_⟩
  · rw [Container.listing, Container.listing, same]
  · decide +kernel

end CompiledScript
