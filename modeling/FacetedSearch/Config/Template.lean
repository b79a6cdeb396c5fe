/-!
# Templates of settings files

The settings files that a new deployment starts with. They list every setting with its default,
and every line that would set something is commented out.
-/

namespace FacetedSearch.Config

/-- The settings file of a catalog, before it is commented out. -/
def localLines : List String :=
  ["# sift catalog configuration",
    "#",
    "# Settings in this file apply to every directory below it. Files closer to",
    "# the working directory take precedence; ~/.sift.toml is consulted last.",
    "",
    "# Stop looking for .sift.toml files in parent directories and skip the",
    "# global config.",
    "root = true",
    "",
    "[compiler]",
    "# The index only accepts GET requests, so long map queries are cut short.",
    "disable_query_posts = false",
    "# Offer the map filter.",
    "spatial_enabled = true",
    "# \"url\" percent-encodes values for a query string, \"raw\" leaves them as typed.",
    "encoding = \"url\"",
    "# Query length at which geohash cells stop being added (GET-only indexes).",
    "geohash_query_limit = 1900",
    "# Longest URL sent with GET before a request switches to POST.",
    "url_length_limit = 2000",
    "",
    "# Index fields searched for each filter category.",
    "[fields]",
    "creator = \"originText\"",
    "spatial = \"siteText\"",
    "taxon = [\"kingdom\", \"phylum\", \"class\", \"order\", \"family\", \"genus\", \"species\"]",
    "",
    "# Fields requested when counting facet values for a category.",
    "[facets]",
    "creator = \"origin\"",
    "spatial = \"site\"",
    "",
    "[deployment]",
    "# Categories this index does not support.",
    "omit = [\"annotation\"]"]

/-- The settings file of a user, before it is commented out. -/
def globalLines : List String :=
  ["# sift global configuration (~/.sift.toml)",
    "#",
    "# Lowest precedence: any .sift.toml in or above the working directory",
    "# overrides these values.",
    "",
    "[compiler]",
    "encoding = \"url\"",
    "geohash_query_limit = 1900",
    "url_length_limit = 2000"]

/-- Make a line a comment; comments and empty lines stay as they are. -/
def commentOut (line : String) : String :=
  if line.isEmpty || line.toList.head? == some '#' then line else "# " ++ line

/-- The lines of a template, commented out. -/
def commentedLines (lines : List String) : List String :=
  lines.map commentOut

/-- Lines as a text. -/
def linesText (lines : List String) : String :=
  String.join (lines.map (· ++ "\n"))

/-- The new settings file of a catalog. -/
def localTemplate : String :=
  linesText (commentedLines localLines)

/-- The new settings file of a user. -/
def globalTemplate : String :=
  linesText (commentedLines globalLines)

end FacetedSearch.Config
