import ItemGuard.Item.Names

/-!
# The classic names

The block and item names of the classic game. They are stored as they stand here, which is right
because each is its own normal form (`normalName_classic`).
-/

namespace ItemGuard

/-- The classic block and item names with their codes. -/
def classicNames : List (String × Nat) :=
  [("stone", 1), ("grass", 2), ("dirt", 3), ("cobblestone", 4), ("wood", 5), ("sapling", 6),
   ("bedrock", 7), ("water", 8), ("stationary_water", 9), ("lava", 10), ("stationary_lava", 11),
   ("sand", 12), ("gravel", 13), ("gold_ore", 14), ("iron_ore", 15), ("coal_ore", 16),
   ("log", 17), ("leaves", 18), ("sponge", 19), ("glass", 20), ("cloth", 35),
   ("yellow_flower", 37), ("red_rose", 38), ("brown_mushroom", 39), ("red_mushroom", 40),
   ("gold_block", 41), ("iron_block", 42), ("double_step", 43), ("step", 44), ("brick", 45),
   ("tnt", 46), ("bookshelf", 47), ("mossy_cobblestone", 48), ("obsidian", 49), ("torch", 50),
   ("fire", 51), ("mob_spawner", 52), ("wooden_stairs", 53), ("chest", 54),
   ("redstone_wire", 55), ("diamond_ore", 56), ("diamond_block", 57), ("workbench", 58),
   ("crops", 59), ("soil", 60), ("furnace", 61), ("sign_post", 63), ("wooden_door", 64),
   ("ladder", 65), ("rails", 66), ("cobblestone_stairs", 67), ("wall_sign", 68), ("lever", 69),
   ("stone_plate", 70), ("iron_door", 71), ("wooden_plate", 72), ("redstone_ore", 73),
   ("redstone_torch", 76), ("stone_button", 77), ("snow", 78), ("ice", 79), ("snow_block", 80),
   ("cactus", 81), ("clay", 82), ("reed", 83), ("jukebox", 84), ("iron_spade", 256),
   ("iron_pickaxe", 257), ("iron_axe", 258), ("flint_and_steel", 259), ("lighter", 259),
   ("apple", 260), ("bow", 261), ("arrow", 262), ("coal", 263), ("diamond", 264),
   ("iron_sword", 267), ("diamond_pickaxe", 278), ("bucket", 325), ("water_bucket", 326),
   ("lava_bucket", 327), ("minecart", 328)]

def NameTable.classic : NameTable :=
  ⟨Std.ExtTreeMap.ofList (classicNames.map fun b => (b.1, ItemId.ofNat b.2))⟩

theorem normalName_classic : ∀ b ∈ classicNames, normalName b.1 = b.1 := by
  decide +kernel

end ItemGuard
