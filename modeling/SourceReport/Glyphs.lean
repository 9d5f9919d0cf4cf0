/-!
# Glyphs

The pieces that borders, carets and brackets are drawn with.
-/

namespace SourceReport

inductive GlyphSet where
  | boxDrawing | ascii
  deriving DecidableEq, Repr

namespace GlyphSet

def all : List GlyphSet := [.boxDrawing, .ascii]

def name : GlyphSet → String
  | .boxDrawing => "box_drawing"
  | .ascii => "ascii"

def ofName? (name : String) : Option GlyphSet :=
  all.find? (·.name = name)

end GlyphSet

structure Glyphs where
  snippetStart : String
  border : String
  borderBreak : String
  noteBullet : String
  primaryCaret : String
  secondaryCaret : String
  primaryBracketStart : String
  primaryBracketEnd : String
  secondaryBracketStart : String
  secondaryBracketEnd : String
  topCorner : String
  topStroke : String
  bottomCorner : String
  bottomStroke : String
  bar : String
  pointer : String
  deriving DecidableEq, Repr

namespace Glyphs

def boxDrawing : Glyphs where
  snippetStart := "┌─"
  border := "│"
  borderBreak := "·"
  noteBullet := "="
  primaryCaret := "^"
  secondaryCaret := "-"
  primaryBracketStart := "^"
  primaryBracketEnd := "^"
  secondaryBracketStart := "'"
  secondaryBracketEnd := "'"
  topCorner := "╭"
  topStroke := "─"
  bottomCorner := "╰"
  bottomStroke := "─"
  bar := "│"
  pointer := "│"

/-- For terminals whose fonts draw boxes poorly. -/
def ascii : Glyphs where
  snippetStart := "-->"
  border := "|"
  borderBreak := "."
  noteBullet := "="
  primaryCaret := "^"
  secondaryCaret := "-"
  primaryBracketStart := "^"
  primaryBracketEnd := "^"
  secondaryBracketStart := "'"
  secondaryBracketEnd := "'"
  topCorner := "/"
  topStroke := "-"
  bottomCorner := "\\"
  bottomStroke := "-"
  bar := "|"
  pointer := "|"

def ofSet : GlyphSet → Glyphs
  | .boxDrawing => boxDrawing
  | .ascii => ascii

end Glyphs
end SourceReport
