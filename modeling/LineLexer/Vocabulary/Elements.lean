import LineLexer.State.Basic
import LineLexer.Vocabulary.Dictionary

/-!
# Markup elements

The element names that markup knows. An unknown name is still a tag name; the dictionary decides
only its flag. Apart from that, the names of two elements open an embedded language.
-/

namespace LineLexer

/-- The names of the known elements, sorted. -/
def elementNames : List String :=
  ["a", "abbr", "acronym", "address", "applet", "area", "article", "aside", "audio", "b", "base",
    "basefont", "bdi", "bdo", "bgsound", "big", "blink", "blockquote", "body", "br", "button",
    "canvas", "caption", "center", "cite", "code", "col", "colgroup", "command", "comment", "data",
    "datagrid", "datalist", "datatemplate", "dd", "del", "details", "dfn", "dialog", "dir", "div",
    "dl", "dt", "em", "embed", "eventsource", "fieldset", "figcaption", "figure", "font", "footer",
    "form", "frame", "frameset", "h1", "h2", "h3", "h4", "h5", "h6", "head", "header", "hgroup",
    "hr", "html", "i", "iframe", "ilayer", "img", "input", "ins", "isindex", "kbd", "keygen",
    "label", "layer", "legend", "li", "link", "main", "map", "mark", "marquee", "menu", "meta",
    "meter", "multicol", "nav", "nest", "nobr", "noembed", "noframes", "nolayer", "noscript",
    "object", "ol", "optgroup", "option", "output", "p", "param", "picture", "plaintext", "pre",
    "progress", "q", "rp", "rt", "ruby", "rule", "s", "samp", "script", "search", "section",
    "select", "server", "slot", "small", "source", "spacer", "span", "strike", "strong", "style",
    "sub", "summary", "sup", "svg", "table", "tbody", "td", "template", "textarea", "tfoot", "th",
    "thead", "time", "title", "tr", "track", "tt", "u", "ul", "var", "video", "wbr"]

/-- The dictionary of the known elements. -/
def elements : Dictionary Unit :=
  .ofNames elementNames

/-- The element that a tag name in any letter case belongs to. -/
def TagKind.ofName (name : Text) : TagKind :=
  if foldCase name = "script".toList then .script
  else if foldCase name = "style".toList then .style
  else .plain

end LineLexer
