/-!
# Limits of words

The limits of numbers that are kept in words of a fixed size.
-/

namespace EditPipeline.Word

/-- One more than the greatest signed word of 32 bits. -/
abbrev signed32 : Nat := 0x80000000

/-- One more than the greatest signed word of 64 bits. -/
abbrev signed64 : Nat := 0x8000000000000000

/-- One more than the greatest unsigned word of 64 bits. -/
abbrev unsigned64 : Nat := 0x10000000000000000

end EditPipeline.Word
