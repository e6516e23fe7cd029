import ByteMachine.Assembly.Context

/-!
# The listing

The context of an assembly as a text to read: a row for each instruction line with its
address and its bytes, then the label table and the branch sites if there are any.
-/

namespace ByteMachine

/-- The row of an instruction line: its address, its bytes and its text. -/
def ListingEntry.row (entry : ListingEntry) : Text :=
  Text.address entry.address ++ "   ".toList ++
    Text.padRight 12 (Text.hexRow entry.bytes) ++ "  ".toList ++ Text.trim entry.place.text

/-- The row of a label: its name and its address. -/
def Label.row (label : Label) : Text :=
  "  ".toList ++ Text.padRight 20 label.name ++ ' ' :: Text.address label.address

/-- The row of a branch site: its address and the label that the branch goes to. -/
def BranchSite.row (site : BranchSite) : Text :=
  "  ".toList ++ Text.address site.address ++ "  -> ".toList ++
    Text.padRight 20 site.label ++ " (line ".toList ++
    Text.signedDecimal site.lineNum ++ [')']

namespace Context

/-- A **titled part** of the listing: an empty row, its title and its rows; nothing if it has no
rows. -/
def titled (title : Text) (rows : List Text) : List Text :=
  if rows = [] then [] else [] :: title :: rows

/-- The **listing** of a context: the instruction lines, then the labels, then the branch sites. -/
def listingText (context : Context) : Text :=
  Text.unlines <|
    [ "; profile: ".toList ++ context.profile.name.toList,
      "ADDR  BYTES         SOURCE".toList,
      List.replicate 48 '-' ] ++
    context.listing.map ListingEntry.row ++
    titled "Labels:".toList (context.labels.map Label.row) ++
    titled "Branch sites:".toList (context.sites.map BranchSite.row)

end Context

end ByteMachine
