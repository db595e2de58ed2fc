import TerseMarkup.Text

/-!
# HTML vocabulary

The elements that have no content of their own, and the document type declarations by name.
-/

namespace TerseMarkup.Html

/-- The elements that are written in self-closing form. -/
def voidElements : List Text :=
  ["meta", "img", "link", "input", "area", "base", "col", "br", "hr"].map String.toList

/-- Whether an element is written in self-closing form. -/
def isVoid (name : Text) : Bool :=
  voidElements.contains name

/-- The declaration of current HTML. -/
def currentDoctype : Text :=
  "<!DOCTYPE html>".toList

/-- A document type declaration with a public and a system identifier. -/
def publicDoctype (publicId systemId : String) : Text :=
  "<!DOCTYPE html PUBLIC \"".toList ++ publicId.toList ++ "\" \"".toList ++ systemId.toList ++
    "\">".toList

/-- The declarations that a name stands for. -/
def doctypes : List (Text × Text) :=
  [("html".toList, currentDoctype),
    ("5".toList, currentDoctype),
    ("1.1".toList,
      publicDoctype "-//W3C//DTD XHTML 1.1//EN" "http://www.w3.org/TR/xhtml11/DTD/xhtml11.dtd"),
    ("strict".toList,
      publicDoctype "-//W3C//DTD XHTML 1.0 Strict//EN"
        "http://www.w3.org/TR/xhtml1/DTD/xhtml1-strict.dtd"),
    ("xml".toList, "<?xml version=\"1.0\" encoding=\"utf-8\" ?>".toList),
    ("transitional".toList,
      publicDoctype "-//W3C//DTD XHTML 1.0 Transitional//EN"
        "http://www.w3.org/TR/xhtml1/DTD/xhtml1-transitional.dtd"),
    ("frameset".toList,
      publicDoctype "-//W3C//DTD XHTML 1.0 Frameset//EN"
        "http://www.w3.org/TR/xhtml1/DTD/xhtml1-frameset.dtd"),
    ("basic".toList,
      publicDoctype "-//W3C//DTD XHTML Basic 1.1//EN"
        "http://www.w3.org/TR/xhtml-basic/xhtml-basic11.dtd"),
    ("mobile".toList,
      publicDoctype "-//WAPFORUM//DTD XHTML Mobile 1.2//EN"
        "http://www.openmobilealliance.org/tech/DTD/xhtml-mobile12.dtd")]

/-- The declaration for a name; a name that stands for nothing means current HTML. -/
def doctype (name : Text) : Text :=
  (doctypes.lookup name).getD currentDoctype

end TerseMarkup.Html
