import FactMatch.Basic
import FactMatch.Date
import FactMatch.Matcher
import FactMatch.ForItem
import FactMatch.Output
import FactMatch.ForParses
import FactMatch.Task
import FactMatch.Wikibot
import FactMatch.WikipediaDates
import FactMatch.Regex
import FactMatch.DatesPattern
import FactMatch.ViewModel
