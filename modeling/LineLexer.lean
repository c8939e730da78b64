import LineLexer.Main
import LineLexer.Proofs.Bytewise
import LineLexer.Proofs.Embedding
import LineLexer.Proofs.Partition
import LineLexer.Proofs.Progress
import LineLexer.Proofs.Scan.Reach
import LineLexer.Proofs.Scan.Recall
import LineLexer.Proofs.ClosingTag
import LineLexer.Proofs.Scan.ScriptBlock
import LineLexer.Proofs.ClosingTag.Clear
import LineLexer.Proofs.ClosingTag.Script
import LineLexer.Proofs.ClosingTag.Style
import LineLexer.Proofs.ClosingTag.Host
import LineLexer.Proofs.LineBreak
import LineLexer.Proofs.LineBreak.Markup
import LineLexer.Proofs.LineBreak.Style
import LineLexer.Proofs.LineBreak.Script
import LineLexer.Proofs.LineBreak.Resume
import LineLexer.Proofs.Kind
import LineLexer.Proofs.Link.Decoration
import LineLexer.Proofs.Link.Closer
import LineLexer.Proofs.State.Codec
import LineLexer.Proofs.State.Storable
import LineLexer.Proofs.State.LeftOpen
import LineLexer.Proofs.Dump.Resume
import LineLexer.Proofs.Dump.Coverage
import LineLexer.Proofs.LetterCase
import LineLexer.Proofs.Link.Leftmost
import LineLexer.Proofs.Scan.Cut
import LineLexer.Proofs.Literal.Escape
import LineLexer.Proofs.Literal.Quoted
import LineLexer.Proofs.Literal.Interpolation
import LineLexer.Proofs.Number
import LineLexer.Proofs.Literal.Regex
import LineLexer.Proofs.Comment.Opening
import LineLexer.Proofs.Comment.Toggle
import LineLexer.Proofs.Attribute
import LineLexer.Proofs.Vocabulary.Dictionary
import LineLexer.Proofs.State.Context
import LineLexer.Proofs.Token.Next
import LineLexer.Proofs.Number.Style
import LineLexer.Proofs.Grammar.Markup
import LineLexer.Proofs.Content.Entity
import LineLexer.Proofs.Content
import LineLexer.Proofs.Text.Search
import LineLexer.Proofs.LineBreak.Delimited
import LineLexer.Proofs.Text.Word
import LineLexer.Proofs.Vocabulary.Keywords
import LineLexer.Proofs.Vocabulary.Names
import LineLexer.Proofs.Dump.Unambiguous
import LineLexer.Proofs.Cursor
import LineLexer.Proofs.ClosingTag.Search
import LineLexer.Proofs.Vocabulary.Operators
